import CardBattle.Action.Basic
import CardBattle.Proofs.BoardUnit.Restoration
import CardBattle.Proofs.Json.Rendering
import CardBattle.Proofs.Text.Numeral

/-!
# Reading back an action

An action is read back from what it is written as, and from the spellings that came before:
there a uid may be a text, the column of a cell may be called its slot, and the payload of an
activation without a target may be left out (`Action.SpelledAs`).  It does not matter in which
order the fields stand, nor whether the value is at hand or stands in a text.
-/

namespace CardBattle

open Json (Fields FieldsReorder Leniency ReadsAs Restored decode encode readAs_none readAs_one
  readsAs_object readsAs_tagged reorders_object required_ok requiredAs_ok restored under)

/-! ### Uids -/

/-- The values that spell a uid: its number, or a text of that number, which may stand behind the
mark `u_` and between blanks. -/
inductive Uid.SpelledAs (uid : Uid) : Json → Prop
  | number : uid.SpelledAs (encode uid)
  | text {before mark after : String} (hbefore : ∀ c ∈ before.toList, Text.isBlank c = true)
      (hmark : mark = "" ∨ mark = "u_") (hafter : ∀ c ∈ after.toList, Text.isBlank c = true) :
      uid.SpelledAs (.string (before ++ mark ++ toString uid.number ++ after))

/-- The marks before a number are dropped. -/
theorem Uid.dropMarks_toDigits {mark : String} (hmark : mark = "" ∨ mark = "u_") (n : Nat) :
  dropMarks (mark.toList ++ Nat.toDigits 10 n) = Nat.toDigits 10 n
  := by
  have hdigits : dropMarks (Nat.toDigits 10 n) = Nat.toDigits 10 n := by
    rw [dropMarks]
    rintro rest
    exact Text.toDigits_ne_cons rfl
  rcases hmark with rfl | rfl
  · exact hdigits
  · exact hdigits

/-- A uid is read from each text that spells it. -/
theorem Uid.ofText?_spelled (uid : Uid) {before mark after : String}
    (hbefore : ∀ c ∈ before.toList, Text.isBlank c = true) (hmark : mark = "" ∨ mark = "u_")
    (hafter : ∀ c ∈ after.toList, Text.isBlank c = true) :
  ofText? (before ++ mark ++ toString uid.number ++ after) = some uid
  := by
  have hnumber : (toString uid.number).toList = Nat.toDigits 10 uid.number.toNat :=
    Nat.toList_repr
  have hblank : ∀ c ∈ mark.toList ++ Nat.toDigits 10 uid.number.toNat, Text.isBlank c = false := by
    intro c hc
    rcases List.mem_append.mp hc with hc | hc
    · obtain rfl | rfl := hmark
      · simp at hc
      · have hc : c ∈ ['u', '_'] := by simpa using hc
        rcases List.mem_cons.mp hc with rfl | hc
        · rfl
        · obtain rfl := List.mem_singleton.mp hc
          rfl
    · exact Text.isBlank_of_isDigit (Text.isDigit_of_mem_toDigits hc)
  rw [ofText?]
  simp only [String.toList_append, List.append_assoc, hnumber]
  rw [← List.append_assoc mark.toList, Text.trimList_append hbefore hblank hafter,
    dropMarks_toDigits hmark, Text.natural?_toDigits]
  dsimp only
  rw [if_pos uid.number.toNat_lt, UInt32.ofNat_toNat]

theorem Uid.SpelledAs.readsAs {uid : Uid} {v : Json} (h : uid.SpelledAs v) :
  ReadsAs decode v uid
  := by
  cases h with
  | number => exact restored uid
  | text hbefore hmark hafter =>
    intro leniency v hv
    cases hv
    have hread := uid.ofText?_spelled hbefore hmark hafter
    simp only [decode, Json.Input.whole, bind, Except.bind, hread]
    rfl

theorem Uid.SpelledAs.plain {levels : Nat} {uid : Uid} {v : Json} (h : uid.SpelledAs v) :
  Json.Plain levels v
  := by
  cases h with
  | number => exact Json.plain_ofNat (uid.number.toNat_lt.trans (by decide))
  | text => exact .string _

theorem Uid.SpelledAs.ne_null {uid : Uid} {v : Json} (h : uid.SpelledAs v) :
  v ≠ .null
  := by
  cases h with
  | number => exact Json.encode_ne_null uid
  | text =>
    intro h
    cases h

/-! ### Actions -/

namespace Action

/-- The fields that spell a cell: its lane, and its column, which may be called a slot. -/
inductive SpelledCell (cell : Cell) : Fields → Prop
  | column : SpelledCell cell [("lane", encode cell.lane), ("column", encode cell.column)]
  | slot : SpelledCell cell [("lane", encode cell.lane), ("slot", encode cell.column)]

/-- The fields that spell the target of an activation: a payload with the uid of the target, an
empty payload without one, or no payload at all. -/
inductive SpelledTarget : Option Uid → Fields → Prop
  | target {uid : Uid} {v : Json} (h : uid.SpelledAs v) :
      SpelledTarget (some uid) [("payload", .object [("targetUid", v)])]
  | empty : SpelledTarget none [("payload", .object [])]
  | missing : SpelledTarget none []

/-- The values that spell an action. -/
inductive SpelledAs : Action → Json → Prop
  | playUnit (player : UInt8) (handIndex : UInt64) {cell : Cell} {fields : Fields}
      (hcell : SpelledCell cell fields) :
      SpelledAs (.playUnit player handIndex cell) (.tagged "type" "PLAY_UNIT"
        ([("player", encode player), ("handIndex", encode handIndex)] ++ fields))
  | move (player : UInt8) {unit : Uid} {cell : Cell} {v : Json} {fields : Fields}
      (hunit : unit.SpelledAs v) (hcell : SpelledCell cell fields) :
      SpelledAs (.move player unit cell) (.tagged "type" "MOVE"
        ([("player", encode player), ("unitUid", v)] ++ fields))
  | attack (player : UInt8) {attacker target : Uid} {v w : Json}
      (hattacker : attacker.SpelledAs v) (htarget : target.SpelledAs w) :
      SpelledAs (.attack player attacker target) (.tagged "type" "ATTACK"
        [("player", encode player), ("attackerUid", v), ("targetUid", w)])
  | activate (player : UInt8) {unit : Uid} (slot : UInt8) {target : Option Uid} {v : Json}
      {fields : Fields} (hunit : unit.SpelledAs v) (htarget : SpelledTarget target fields) :
      SpelledAs (.activate player unit slot target) (.tagged "type" "ACTIVATE_ABILITY"
        ([("player", encode player), ("unitUid", v), ("slot", encode slot)] ++ fields))
  | endTurn (player : UInt8) :
      SpelledAs (.endTurn player) (.tagged "type" "END_TURN" [("player", encode player)])

section Fields

variable {all own fields : Fields} {leniency : Leniency}

/-- A uid is read from a field that spells it. -/
theorem requiredUid_ok (name : String) {uid : Uid} {v : Json} (huid : uid.SpelledAs v)
    (h : FieldsReorder all fields) (hone : under [name] all = [v]) :
  (Json.Members.ofFields leniency fields).required name = .value uid
  := requiredAs_ok h hone huid.readsAs

/-- The cell of an action is read from fields among which are those that spell it. -/
theorem readCell_ok {cell : Cell} (hcell : SpelledCell cell own) (h : FieldsReorder all fields)
    (hlane : under ["lane"] all = under ["lane"] own)
    (hcolumn : under ["column", "slot"] all = under ["column", "slot"] own) :
  readCell (.ofFields leniency fields) = .value cell
  := by
  have hlane : under ["lane"] all = [encode cell.lane] := by
    rw [hlane]
    cases hcell <;> rfl
  have hcolumn : under ["column", "slot"] all = [encode cell.column] := by
    rw [hcolumn]
    cases hcell <;> rfl
  rw [readCell, required_ok "lane" h hlane (restored cell.lane),
    requiredAs_ok h hcolumn (restored cell.column)]
  rfl

/-- The target of an activation is read from fields among which are those that spell it. -/
theorem readTarget_ok {target : Option Uid} (htarget : SpelledTarget target own)
    (h : FieldsReorder all fields) (hpayload : under ["payload"] all = under ["payload"] own) :
  (Json.Members.ofFields leniency fields).readAs ["payload"] readPayload (.value none)
    = .value target
  := by
  cases htarget with
  | target huid =>
    apply readAs_one h hpayload
    apply readsAs_object
    intro leniency fields h
    exact readAs_one h rfl (huid.readsAs.orNull huid.ne_null)
  | empty =>
    apply readAs_one h hpayload
    apply readsAs_object
    intro leniency fields h
    exact readAs_none h rfl
  | missing => exact readAs_none h hpayload

end Fields

/-- An action is read from each value that spells it. -/
theorem SpelledAs.readsAs {action : Action} {v : Json} (h : action.SpelledAs v) :
  ReadsAs decode v action
  := by
  cases h with
  | playUnit player handIndex hcell =>
    apply readsAs_tagged rfl (by cases hcell <;> rfl)
    intro fields h
    rw [required_ok "player" h (by cases hcell <;> rfl) (restored player),
      required_ok "handIndex" h (by cases hcell <;> rfl) (restored handIndex),
      readCell_ok hcell h rfl rfl]
    rfl
  | move player hunit hcell =>
    apply readsAs_tagged rfl (by cases hcell <;> rfl)
    intro fields h
    rw [required_ok "player" h (by cases hcell <;> rfl) (restored player),
      requiredUid_ok "unitUid" hunit h (by cases hcell <;> rfl), readCell_ok hcell h rfl rfl]
    rfl
  | attack player hattacker htarget =>
    apply readsAs_tagged rfl rfl
    intro fields h
    rw [required_ok "player" h rfl (restored player), requiredUid_ok "attackerUid" hattacker h rfl,
      requiredUid_ok "targetUid" htarget h rfl]
    rfl
  | activate player slot hunit htarget =>
    apply readsAs_tagged rfl (by cases htarget <;> rfl)
    intro fields h
    rw [required_ok "player" h (by cases htarget <;> rfl) (restored player),
      requiredUid_ok "unitUid" hunit h (by cases htarget <;> rfl),
      required_ok "slot" h (by cases htarget <;> rfl) (restored slot), readTarget_ok htarget h rfl]
    rfl
  | endTurn player =>
    apply readsAs_tagged rfl rfl
    intro fields h
    rw [required_ok "player" h rfl (restored player)]
    rfl

theorem SpelledCell.plain {levels : Nat} {cell : Cell} {fields : Fields}
    (h : SpelledCell cell fields) :
  ∀ f ∈ fields, Json.Plain levels f.2
  := by
  have hlane : Json.Plain levels (encode cell.lane) := .string _
  have hcolumn : Json.Plain levels (encode cell.column) :=
    Json.plain_ofNat cell.column.toNat_lt
  cases h <;> exact List.forall_mem_cons.mpr ⟨hlane, List.forall_mem_singleton.mpr hcolumn⟩

theorem SpelledTarget.plain {levels : Nat} {target : Option Uid} {fields : Fields}
    (h : SpelledTarget target fields) :
  ∀ f ∈ fields, Json.Plain (levels + 1) f.2
  := by
  cases h with
  | target huid =>
    refine List.forall_mem_singleton.mpr (.object (by simp) ?_)
    exact List.forall_mem_singleton.mpr huid.plain
  | empty => exact List.forall_mem_singleton.mpr (.object (by simp) (List.forall_mem_nil _))
  | missing => exact List.forall_mem_nil _

/-- The values that spell an action are plain, and nothing deeper than a payload is nested in
them. -/
theorem SpelledAs.plain {levels : Nat} {action : Action} {v : Json} (h : action.SpelledAs v) :
  Json.Plain (levels + 2) v
  := by
  have hbyte (n : UInt8) {levels : Nat} : Json.Plain levels (encode n) :=
    Json.plain_ofNat (n.toNat_lt.trans (by decide))
  have hword (n : UInt64) {levels : Nat} : Json.Plain levels (encode n) :=
    Json.plain_ofNat n.toNat_lt
  cases h with
  | playUnit player handIndex hcell =>
    refine .object (by cases hcell <;> simp) ?_
    simp only [List.forall_mem_cons, List.forall_mem_append]
    exact ⟨.string _, ⟨hbyte player, hword handIndex, List.forall_mem_nil _⟩, hcell.plain⟩
  | move player hunit hcell =>
    refine .object (by cases hcell <;> simp) ?_
    simp only [List.forall_mem_cons, List.forall_mem_append]
    exact ⟨.string _, ⟨hbyte player, hunit.plain, List.forall_mem_nil _⟩, hcell.plain⟩
  | attack player hattacker htarget =>
    refine .object (by simp) ?_
    simp only [List.forall_mem_cons]
    exact ⟨.string _, hbyte player, hattacker.plain, htarget.plain, List.forall_mem_nil _⟩
  | activate player slot hunit htarget =>
    refine .object (by cases htarget <;> simp) ?_
    simp only [List.forall_mem_cons, List.forall_mem_append]
    exact ⟨.string _, ⟨hbyte player, hunit.plain, hbyte slot, List.forall_mem_nil _⟩, htarget.plain⟩
  | endTurn player =>
    refine .object (by simp) ?_
    simp only [List.forall_mem_cons]
    exact ⟨.string _, hbyte player, List.forall_mem_nil _⟩

theorem SpelledAs.exists_object {action : Action} {spelling v : Json}
    (h : action.SpelledAs spelling) (hv : spelling.Reorders v) :
  ∃ fields, v = .object fields
  := by
  cases h <;> obtain ⟨fields, rfl, -⟩ := reorders_object hv <;> exact ⟨fields, rfl⟩

/-- An action is read from a text that stands for a value that spells it, if no name stands twice
in the text. -/
theorem SpelledAs.readText {action : Action} {spelling v : Json} (h : action.SpelledAs spelling)
    (hv : spelling.Reorders v) {text : String} (hparse : Json.parse? text = some v)
    (hdistinct : Json.hasDistinctNames text = true) :
  Json.readText decode text = .ok action
  := by
  obtain ⟨fields, rfl⟩ := h.exists_object hv
  exact (Json.readText_tagged hparse hdistinct "type" kinds _).trans (h.readsAs {} _ hv)

end Action

end CardBattle
