import CardBattle.Json.Text
import CardBattle.Proofs.Json.Restoration

/-!
# Objects of several kinds in a text

An object of one of several kinds is taken in whole before its fields are read.  So it is read
from a text as it is read from the value that the text stands for, if no name stands twice
among its fields.
-/

namespace CardBattle.Json

open List (Forall₂)

variable {α : Type} {levels : Nat}

/-- What is written gives the field. -/
def Gives (levels : Nat) (written : Name × Written) (f : String × Json) : Prop :=
  written.1.text? = some f.1 ∧ written.2.value? levels = some f.2

theorem addField_new {fields : Fields} {name : String} (h : ∀ f ∈ fields, f.1 ≠ name) (v : Json) :
  addField fields name v = fields ++ [(name, v)]
  := by rw [addField, List.filter_eq_self.mpr fun f hf => decide_eq_true (h f hf)]

/-- The fields that an object gives in which no name stands twice. -/
theorem fieldValues?_gives {written : List (Name × Written)} {before fields : Fields}
    (h : Written.fieldValues? levels before written = some fields)
    (hnodup : (written.map (·.1.text?)).Nodup)
    (hnew : ∀ f ∈ before, some f.1 ∉ written.map (·.1.text?)) :
  ∃ given, fields = before ++ given ∧ Forall₂ (Gives levels) written given
  := by
  induction written generalizing before with
  | nil =>
    obtain rfl := Option.some.inj h
    exact ⟨[], (List.append_nil _).symm, .nil⟩
  | cons first rest ih =>
    obtain ⟨name, w⟩ := first
    rw [Written.fieldValues?] at h
    obtain ⟨s, hs, h⟩ := Option.bind_eq_some_iff.mp h
    obtain ⟨v, hv, h⟩ := Option.bind_eq_some_iff.mp h
    rw [List.map_cons, hs] at hnodup hnew
    obtain ⟨hfirst, hrest⟩ := List.nodup_cons.mp hnodup
    have hadd : ∀ f ∈ before, f.1 ≠ s := by
      rintro f hf rfl
      exact hnew f hf List.mem_cons_self
    rw [addField_new hadd] at h
    obtain ⟨given, rfl, hgives⟩ := ih h hrest (by
      intro f hf
      rcases List.mem_append.mp hf with hf | hf
      · exact fun hmem => hnew f hf (List.mem_cons_of_mem _ hmem)
      · rwa [List.mem_singleton.mp hf])
    exact ⟨(s, v) :: given, List.append_assoc .., .cons ⟨hs, hv⟩ hgives⟩

/-- A kind is named in a text as it is in a value. -/
theorem kinds_read_written (kinds : Kinds) {w : Written} {v : Json}
    (h : w.value? levels = some v) :
  kinds.read (.written levels w) = kinds.read (.given {} v)
  := by
  cases w with
  | leaf v =>
    rw [Written.value?] at h
    obtain rfl := Option.some.inj h
    cases v <;> rfl
  | void => cases levels <;> cases h
  | broken => cases levels <;> cases h
  | array items isClosed =>
    obtain _ | levels := levels
    · cases isClosed <;> cases h
    · cases isClosed with
      | false => cases h
      | true =>
        obtain ⟨vs, -, rfl⟩ := Option.map_eq_some_iff.mp h
        rfl
  | object fields isClosed =>
    obtain _ | levels := levels
    · cases isClosed <;> cases h
    · cases isClosed with
      | false => cases h
      | true =>
        obtain ⟨vs, -, rfl⟩ := Option.map_eq_some_iff.mp h
        rfl

/-- The fields of an object in a text. -/
def Members.ofWritten (levels : Nat) (written : List (Name × Written)) : Members where
  entries := written.map fun (name, w) => (name, .written levels w)
  isClosed := true

theorem Members.ofWritten_cons (entry : Name × Written) (rest : List (Name × Written)) :
  (Members.ofWritten levels (entry :: rest)).entries
    = (entry.1, .written levels entry.2) :: (Members.ofWritten levels rest).entries
  := rfl

theorem Members.ofFields_cons (leniency : Leniency) (f : String × Json) (rest : Fields) :
  (Members.ofFields leniency (f :: rest)).entries
    = (.plain f.1, .given leniency f.2) :: (Members.ofFields leniency rest).entries
  := rfl

section Fields

variable {written : List (Name × Written)} {fields : Fields}

theorem locate_written (h : Forall₂ (Gives levels) written fields) (names : List String)
    (kinds : Kinds) (place : Nat) :
  Forall₂ (fun found found' => found.1 = found'.1 ∧ kinds.read found.2 = kinds.read found'.2)
    (Members.locate names place (Members.ofWritten levels written).entries)
    (Members.locate names place (Members.ofFields {} fields).entries)
  := by
  induction h generalizing place with
  | nil => exact .nil
  | @cons entry f _ _ hgives _ ih =>
    rw [Members.ofWritten_cons, Members.ofFields_cons, Members.locate, Members.locate, hgives.1,
      Name.plain]
    split
    · exact .cons ⟨rfl, kinds_read_written kinds hgives.2⟩ (ih (place + 1))
    · exact ih (place + 1)

/-- The kind of an object is found in a text where it is found among the fields given. -/
theorem requiredAs_written (h : Forall₂ (Gives levels) written fields) (names : List String)
    (kinds : Kinds) :
  (Members.ofWritten levels written).requiredAs names kinds.read
    = (Members.ofFields {} fields).requiredAs names kinds.read
  := by
  have hlocate := locate_written h names kinds 0
  have hlength : (Members.ofWritten levels written).entries.length
      = (Members.ofFields {} fields).entries.length := by
    simpa only [Members.ofWritten, Members.ofFields, List.length_map] using h.length_eq
  rw [Members.requiredAs, Members.requiredAs, Members.readAs, Members.readAs, Members.missing,
    Members.missing, hlength]
  generalize Members.locate names 0 (Members.ofWritten levels written).entries = found at hlocate
  generalize Members.locate names 0 (Members.ofFields {} fields).entries = found' at hlocate
  obtain _ | ⟨⟨hplace, hread⟩, _ | ⟨⟨hplace', -⟩, -⟩⟩ := hlocate
  · rfl
  · dsimp only
    rw [hplace, hread]
  · dsimp only
    rw [hplace, hread, hplace']

/-- The fields of an object in a text, each taken in whole, are those that it gives. -/
theorem whole_written (h : Forall₂ (Gives levels) written fields) :
  (Members.ofWritten levels written).whole = .value fields
  := by
  suffices hfrom : ∀ place, Members.wholeFrom true place
      (Members.ofWritten levels written).entries = .value fields from hfrom 0
  induction h with
  | nil => exact fun _ => rfl
  | @cons entry f _ _ hgives _ ih =>
    intro place
    rw [Members.ofWritten_cons, Members.wholeFrom, hgives.1, Input.whole, hgives.2]
    exact congrArg (List.cons f <$> ·) (ih (place + 1))

/-- An object of one of several kinds is read from a text as from the fields that it gives. -/
theorem readTagged_written (h : Forall₂ (Gives levels) written fields) (tag : String)
    (kinds : Kinds) (read : String → Members → Reading α) :
  (Input.written (levels + 1) (.object written true)).readTagged tag kinds read
    = (Input.given {} (.object fields)).readTagged tag kinds read
  := by
  change (Prod.mk <$> (Members.ofWritten levels written).requiredAs [tag] kinds.read
      <*> (Members.ofWritten levels written).whole).result >>= _
    = (Prod.mk <$> (Members.ofFields {} fields).requiredAs [tag] kinds.read
      <*> (Members.ofFields {} fields).whole).result >>= _
  rw [requiredAs_written h, whole_written h, whole_ofFields]

end Fields

/-- Whether a text begins with an object in which no name stands twice. -/
def hasDistinctNames (text : String) : Bool :=
  match (front text).1 with
  | .object written _ => (written.map (·.1.text?)).Nodup
  | _ => false

/-- An object of one of several kinds is read from a text as from the value that the text stands
for, if no name stands twice in it. -/
theorem readText_tagged {text : String} {fields : Fields} (h : parse? text = some (.object fields))
    (hdistinct : hasDistinctNames text = true) (tag : String) (kinds : Kinds)
    (read : String → Members → Reading α) :
  readText (fun input => input.readTagged tag kinds read) text
    = (Input.given {} (.object fields)).readTagged tag kinds read
  := by
  rw [parse?] at h
  rw [hasDistinctNames] at hdistinct
  rw [readText]
  generalize front text = found at h hdistinct
  obtain ⟨w, _ | rest⟩ := found
  · cases h
  · cases w with
    | object written isClosed =>
      obtain ⟨hblank, hvalue⟩ := Option.ite_none_right_eq_some.mp h
      cases isClosed with
      | false => cases hvalue
      | true =>
        obtain ⟨given, hgiven, hobject⟩ := Option.map_eq_some_iff.mp hvalue
        obtain rfl := Json.object.inj hobject
        have hnodup := of_decide_eq_true hdistinct
        obtain ⟨given', rfl, hgives⟩ := fieldValues?_gives hgiven hnodup (by simp)
        have hread := readTagged_written hgives tag kinds read
        change (do
          let a ← (Input.written (126 + 1) (.object written true)).readTagged tag kinds read
          if rest.all isBlank then return a else .error .malformed) = _
        simp only [hread, hblank, if_true]
        exact bind_pure _
    | _ => cases hdistinct

end CardBattle.Json
