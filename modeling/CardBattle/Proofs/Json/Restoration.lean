import CardBattle.Json.Codec
import CardBattle.Proofs.Change.Composition
import CardBattle.Proofs.Json.Reordering

/-!
# Reading back what was written

A value is restored when it is read back from the JSON value that it is written as, in
whatever order the fields of objects stand there, and whatever is accepted beyond the plain
form of values (`Restored`).  The readers of leaves, of names, of arrays and of objects restore
what they are made of when its parts are restored: an object is read field by field, and each
field that is not left out stands under its name once.
-/

namespace CardBattle.Json

variable {α β : Type} {read : Input → Except ReadFault α} {a : α} {v w : Json}
  {names : List String} {fields fields' : Fields} {leniency : Leniency}

/-- The value is read as `a` in any order of its fields, and whatever is accepted beyond its
plain form. -/
def ReadsAs (read : Input → Except ReadFault α) (w : Json) (a : α) : Prop :=
  ∀ leniency v, w.Reorders v → read (.given leniency v) = .ok a

/-- The value is read back from what it is written as. -/
def Restored [Codec α] (a : α) : Prop :=
  ReadsAs decode (encode a) a

@[simp]
theorem encode_json (v : Json) :
  encode v = v
  := rfl

/-- A codec that restores all values of a type. -/
class LawfulCodec (α : Type) [Codec α] : Prop where
  restored : ∀ a : α, Restored a

/-- A codec that writes no value of a type as `null`. -/
class NeverNull (α : Type) [Codec α] : Prop where
  encode_ne_null : ∀ a : α, encode a ≠ .null

export LawfulCodec (restored)
export NeverNull (encode_ne_null)

/-- A value that is restored is read back as it was written, and also when its fields have
been put in the order of their names. -/
theorem Restored.read_back [Codec α] (h : Restored a) :
  Json.read (encode a) = .ok a ∧ Json.read (encode a).ordered = .ok a
  := ⟨h {} _ (.refl _), h {} _ (reorders_ordered _)⟩

/-- A reader that may go as deep as its input does is deep enough. -/
theorem readsAs_levels {ofInput : Nat → Input → Except ReadFault α}
    (h : ∀ fuel, w.depth ≤ fuel → ReadsAs (ofInput (fuel + 1)) w a) :
  ReadsAs (fun input => ofInput (input.levels + 1) input) w a
  := by
  intro leniency v hv
  exact h v.depth (Nat.le_of_eq hv.depth_eq.symm) leniency v hv

/-! ### Leaves -/

theorem Reorders.leaf (hleaf : w.depth = 0) (h : w.Reorders v) :
  (Input.given leniency v).leaf = .ok w
  := by
  cases h with
  | refl => cases v with
    | array items => cases hleaf
    | object fields => cases hleaf
    | _ => rfl
  | array => cases hleaf
  | object => cases hleaf

theorem readsAs_leaf {read? : Json → Option α} (hleaf : w.depth = 0) (h : read? w = some a) :
  ReadsAs (readLeaf read?) w a
  := by
  intro leniency v hv
  rw [readLeaf, hv.leaf hleaf]
  simp only [bind, Except.bind, h]
  rfl

theorem ReadsAs.map {f : α → β} (h : ReadsAs read w a) :
  ReadsAs (fun input => (read input).map f) w (f a)
  := by
  intro leniency v hv
  dsimp only
  rw [h leniency v hv]
  rfl

/-- What is not written as `null` may be absent. -/
theorem ReadsAs.orNull (h : ReadsAs read w a) (hne : w ≠ .null) :
  ReadsAs (orNull read) w (some a)
  := by
  intro leniency v hv
  have hnull : (Input.given leniency v).isNull = false := by
    rw [hv.isNull_eq leniency leniency]
    cases w with
    | null => exact absurd rfl hne
    | _ => rfl
  rw [Json.orNull, hnull, h leniency v hv]
  rfl

/-- A name is read as what it stands for. -/
theorem readsAs_name {meaning? : String → Option (Meaning α)} {name : String}
    (h : meaning? name = some (.value a)) :
  ReadsAs (fun input => input.readName meaning?) (.string name) a
  := by
  intro leniency v hv
  cases hv
  dsimp only [Input.readName, Input.leaf]
  rw [h]

/-- A name is read as what it stands for together with what stands with it. -/
theorem readsAs_holding {meaning? : String → Option (Meaning α)} {name : String}
    (h : meaning? name = some (.holding read)) (ha : ReadsAs read w a) :
  ReadsAs (fun input => input.readName meaning?) (.object [(name, w)]) a
  := by
  intro leniency v hv
  obtain ⟨fields', rfl, hfields⟩ := reorders_object hv
  obtain ⟨v, rfl, hreorders⟩ := hfields.singleton
  have hcontent : readNamed meaning? (.plain name) (.given leniency v) = .ok a := by
    dsimp only [readNamed, Name.plain]
    rw [h]
    exact ha leniency v hreorders
  dsimp only [Input.readName, Input.leaf, Input.members, Members.ofFields, List.map, bind,
    Except.bind]
  rw [hcontent]
  rfl

/-- An object of several fields stands for no name. -/
theorem readName_of_fields (leniency : Leniency) (meaning? : String → Option (Meaning α))
    (h : 2 ≤ fields.length) :
  ∃ fault, (Input.given leniency (.object fields)).readName meaning? = .error fault
  := by
  obtain _ | ⟨f, _ | ⟨g, rest⟩⟩ := fields
  · simp at h
  · simp at h
  · dsimp only [Input.readName, Input.leaf, Input.members, Members.ofFields, List.map]
    cases hread : readNamed meaning? (.plain f.1) (.given leniency f.2) with
    | error fault => exact ⟨fault, rfl⟩
    | ok a => exact ⟨.shape, rfl⟩

theorem lawful_ofNames {name : α → String} {ofName? : String → Option α}
    (h : ∀ a, ofName? (name a) = some a) :
  @LawfulCodec α (.ofNames name ofName?)
  := by
  refine @LawfulCodec.mk α (.ofNames name ofName?) fun a => ?_
  apply readsAs_name
  rw [h]
  rfl

theorem neverNull_ofNames (name : α → String) (ofName? : String → Option α) :
  @NeverNull α (.ofNames name ofName?)
  := by
  refine @NeverNull.mk α (.ofNames name ofName?) fun a => ?_
  intro h
  cases h

/-! ### Arrays -/

theorem readsAs_array {items : List Json} {l : List α}
    (h : List.Forall₂ (ReadsAs read) items l) :
  ReadsAs (readArray read) (.array items) l
  := by
  intro leniency v hv
  obtain ⟨items', rfl, hitems⟩ := reorders_array hv
  have hread : (items'.map (Input.given leniency)).mapM read = .ok l := by
    clear hv
    induction h generalizing items' with
    | nil =>
      cases hitems
      rfl
    | cons ha _ ih =>
      obtain ⟨v', rest', hv', hrest, rfl⟩ := List.forall₂_cons_left_iff.mp hitems
      rw [List.map_cons, List.mapM_cons, ha leniency v' hv', ih rest' hrest]
      rfl
  rw [readArray]
  simp only [Input.items, bind, Except.bind, hread]
  rfl

theorem restored_list [Codec α] {l : List α} (h : ∀ a ∈ l, Restored a) :
  Restored l
  := by
  apply readsAs_array
  induction l with
  | nil => exact .nil
  | cons a rest ih =>
    obtain ⟨ha, hrest⟩ := List.forall_mem_cons.mp h
    exact .cons ha (ih hrest)

theorem restored_option [Codec α] [NeverNull α] {o : Option α} (h : ∀ a ∈ o, Restored a) :
  Restored o
  := by
  cases o with
  | none =>
    intro leniency v hv
    cases hv
    rfl
  | some a => exact (h a rfl).orNull (encode_ne_null a)

/-- The next item of an array that is being read, and what is read behind it. -/
theorem nextItem_bind [Codec α] {next : α → ItemReader β} {rest : List Input} {isClosed : Bool}
    (ha : Restored a) (hv : (encode a).Reorders v) :
  (nextItem >>= next) ⟨.given leniency v :: rest, isClosed⟩ = next a ⟨rest, isClosed⟩
  := by
  simp only [bind, StateT.bind, nextItem, nextItemOr, Except.bind, ha leniency v hv]
  rfl

theorem nextItem_fails [Codec α] {next : α → ItemReader β} {input : Input} {rest : List Input}
    {isClosed : Bool} {fault : ReadFault} (h : (decode input : Except ReadFault α) = .error fault) :
  (nextItem >>= next) ⟨input :: rest, isClosed⟩ = .error fault
  := by
  simp only [bind, StateT.bind, nextItem, nextItemOr, Except.bind, h]

/-- An array is read in whole by a reader of its items. -/
theorem readsAs_items {reader : ItemReader α} {items : List Json}
    (h : ∀ leniency items', List.Forall₂ Reorders items items' →
      reader ⟨items'.map (.given leniency), true⟩ = .ok (a, ⟨[], true⟩)) :
  ReadsAs (fun input => input.readItems reader) (.array items) a
  := by
  intro leniency v hv
  obtain ⟨items', rfl, hitems⟩ := reorders_array hv
  dsimp only
  rw [Input.readItems]
  simp only [Input.items, bind, Except.bind, h leniency items' hitems]
  rfl

/-! ### Objects -/

theorem soundness_ofFields (leniency : Leniency) (fields : Fields) :
  (Members.ofFields leniency fields).soundness = .value ()
  := by
  suffices h : ∀ place, Members.soundFrom true place
      (Members.ofFields leniency fields).entries = .value () from h 0
  induction fields with
  | nil => exact fun _ => rfl
  | cons f rest ih => exact fun place => ih (place + 1)

theorem whole_ofFields (leniency : Leniency) (fields : Fields) :
  (Members.ofFields leniency fields).whole = .value fields
  := by
  suffices h : ∀ place, Members.wholeFrom true place
      (Members.ofFields leniency fields).entries = .value fields from h 0
  induction fields with
  | nil => exact fun _ => rfl
  | cons f rest ih =>
    intro place
    exact congrArg (List.cons f <$> ·) (ih (place + 1))

theorem readsAs_object {read : Members → Reading α}
    (h : ∀ leniency fields', FieldsReorder fields fields' →
      read (.ofFields leniency fields') = .value a) :
  ReadsAs (fun input => input.readObject read) (.object fields) a
  := by
  intro leniency v hv
  obtain ⟨fields', rfl, hfields⟩ := reorders_object hv
  change ((fun a _ => a) <$> read (.ofFields leniency fields')
    <*> (Members.ofFields leniency fields').soundness).result = _
  rw [h leniency fields' hfields, soundness_ofFields]
  rfl

/-- The entries with one of the names hold the values that stand under the names. -/
theorem locate_ofFields (leniency : Leniency) (names : List String) (fields : Fields)
    (place : Nat) :
  (Members.locate names place (Members.ofFields leniency fields).entries).map (·.2)
    = (under names fields).map (.given leniency)
  := by
  induction fields generalizing place with
  | nil => rfl
  | cons f rest ih =>
    obtain ⟨name, v⟩ := f
    rw [under_cons]
    change List.map _ (if (some name).any (· ∈ names) then _ else _) = _
    by_cases hname : name ∈ names
    · rw [if_pos (by simpa using hname), if_pos hname, List.map_cons, List.map_cons]
      exact congrArg _ (ih (place + 1))
    · rw [if_neg (by simpa using hname), if_neg hname]
      exact ih (place + 1)

/-- A field that stands under its names once is read. -/
theorem readAs_one {absent : Reading α} (h : FieldsReorder fields fields')
    (hone : under names fields = [w]) (ha : ReadsAs read w a) :
  (Members.ofFields leniency fields').readAs names read absent = .value a
  := by
  obtain ⟨v, hv, hreorders⟩ := h.under_one hone
  have hlocate := locate_ofFields leniency names fields' 0
  rw [hv, List.map_singleton] at hlocate
  obtain ⟨⟨place, input⟩, hfound, hinput⟩ := List.map_eq_singleton_iff.mp hlocate
  dsimp only at hinput
  rw [Members.readAs, hfound, hinput]
  dsimp only
  rw [ha leniency v hreorders]
  rfl

theorem requiredAs_ok (h : FieldsReorder fields fields') (hone : under names fields = [w])
    (ha : ReadsAs read w a) :
  (Members.ofFields leniency fields').requiredAs names read = .value a
  := readAs_one h hone ha

/-- A field that is left out is absent. -/
theorem readAs_none {absent : Reading α} (h : FieldsReorder fields fields')
    (hnone : under names fields = []) :
  (Members.ofFields leniency fields').readAs names read absent = absent
  := by
  have hlocate := locate_ofFields leniency names fields' 0
  rw [h.under_none hnone, List.map_nil, List.map_eq_nil_iff] at hlocate
  rw [Members.readAs, hlocate]

/-- A field that is left out if there is no value for it. -/
theorem readAs_option {o : Option α} {write : α → Json} (h : FieldsReorder fields fields')
    (hunder : under names fields = (o.map write).toList)
    (ho : ∀ a ∈ o, ReadsAs (orNull read) (write a) (some a)) :
  (Members.ofFields leniency fields').readAs names (orNull read) (.value none) = .value o
  := by
  cases o with
  | none => exact readAs_none h hunder
  | some a => exact readAs_one h hunder (ho a rfl)

/-- An object of a kind is read if the fields that it has besides are read. -/
theorem readsAs_tagged {tag kind : String} {kinds : Kinds} {read : String → Members → Reading α}
    (hkind : kinds.ofName? kind = some kind)
    (htag : under [tag] ((tag, .string kind) :: fields) = [.string kind])
    (h : ∀ fields', FieldsReorder ((tag, .string kind) :: fields) fields' →
      read kind (.ofFields .ofKind fields') = .value a) :
  ReadsAs (fun input => input.readTagged tag kinds read) (.tagged tag kind fields) a
  := by
  intro leniency v hv
  obtain ⟨fields', rfl, hfields⟩ := reorders_object hv
  have hread : ReadsAs kinds.read (.string kind) kind := by
    intro leniency v hv
    cases hv
    simp only [Kinds.read, Input.leaf, bind, Except.bind, hkind]
    rfl
  have hfound : (Members.ofFields leniency fields').requiredAs [tag] kinds.read = .value kind :=
    requiredAs_ok hfields htag hread
  dsimp only [Input.readTagged, Input.parts, Input.members, bind, Except.bind]
  rw [hfound, whole_ofFields]
  dsimp only [Reading.map_value, Reading.value_seq_value, Reading.result]
  rw [h fields' hfields]

/-! ### Faults -/

@[simp]
theorem Reading.map_fault (f : α → β) (place : Nat) (cause : ReadFault) :
  f <$> (.fault place cause : Reading α) = .fault place cause
  := rfl

/-- A fault at the first place comes before all others. -/
@[simp]
theorem Reading.fault_zero_seq (cause : ReadFault) (a : Reading α) :
  (.fault 0 cause : Reading (α → β)) <*> a = .fault 0 cause
  := by
  cases a with
  | value a => rfl
  | fault place cause' => rfl

/-! ### Fields of types with codecs -/

variable [Codec α]

theorem required_ok (name : String) (h : FieldsReorder fields fields')
    (hone : under [name] fields = [encode a]) (ha : Restored a) :
  (Members.ofFields leniency fields').required name = .value a
  := requiredAs_ok h hone ha

theorem defaulted_ok (name : String) {default : α} (h : FieldsReorder fields fields')
    (hone : under [name] fields = [encode a]) (ha : Restored a) :
  (Members.ofFields leniency fields').defaulted name default = .value a
  := readAs_one h hone ha

theorem optionalAs_ok (names : List String) {o : Option α} (h : FieldsReorder fields fields')
    (hunder : under names fields = (o.map encode).toList) (ho : Restored o) :
  (Members.ofFields leniency fields').optionalAs names = .value o
  := by
  apply readAs_option h hunder
  rintro a rfl
  exact ho

theorem optional_ok (name : String) {o : Option α} (h : FieldsReorder fields fields')
    (hunder : under [name] fields = (o.map encode).toList) (ho : Restored o) :
  (Members.ofFields leniency fields').optional name = .value o
  := optionalAs_ok [name] h hunder ho

end CardBattle.Json
