import CardBattle.Text.Blank
import Mathlib.Data.List.TakeWhile

/-!
# Numerals among blanks

A number is read back from its decimal numeral, and blanks around a text are dropped.
-/

namespace CardBattle.Text

/-! ### Numerals -/

theorem isDigit_of_mem_toDigits {n : Nat} {c : Char} (h : c ∈ Nat.toDigits 10 n) :
  c.isDigit = true
  := Nat.isDigit_of_mem_toDigits (by decide) (by decide) h

theorem digit?_of_isDigit {c : Char} (h : c.isDigit = true) :
  digit? c = some (c.toNat - '0'.toNat)
  := if_pos h

/-- Digits are read as the number that they spell behind those before. -/
theorem digitsFrom_eq {cs : List Char} (h : ∀ c ∈ cs, c.isDigit = true) (n : Nat) :
  digitsFrom n cs = some (Nat.ofDigitChars 10 cs n)
  := by
  induction cs generalizing n with
  | nil => rfl
  | cons c rest ih =>
    obtain ⟨hc, hrest⟩ := List.forall_mem_cons.mp h
    rw [digitsFrom, digit?_of_isDigit hc, Nat.ofDigitChars_cons]
    exact ih hrest _

theorem digits?_toDigits (n : Nat) :
  digits? (Nat.toDigits 10 n) = some n
  := by
  rw [digits?, digitsFrom_eq fun _ => isDigit_of_mem_toDigits, Nat.ofDigitChars_ten_toDigits]
  exact Nat.toDigits_ne_nil

/-- A numeral begins neither with a sign nor with a letter. -/
theorem toDigits_ne_cons {n : Nat} {c : Char} {cs : List Char} (h : c.isDigit = false) :
  Nat.toDigits 10 n ≠ c :: cs
  := by
  intro hcs
  have := isDigit_of_mem_toDigits (hcs ▸ List.mem_cons_self : c ∈ Nat.toDigits 10 n)
  simp [h] at this

/-- A natural number is read back from its numeral. -/
theorem natural?_toDigits (n : Nat) :
  natural? (Nat.toDigits 10 n) = some n
  := by
  rw [natural?]
  · exact digits?_toDigits n
  · exact fun cs => toDigits_ne_cons rfl

/-- A digit is no blank. -/
theorem isBlank_of_isDigit {c : Char} (h : c.isDigit = true) :
  isBlank c = false
  := by
  have hrange : 48 ≤ c.toNat ∧ c.toNat ≤ 57 := by
    simpa [Char.isDigit, UInt32.le_iff_toNat_le] using h
  simp only [isBlank, Bool.or_eq_false_iff, Bool.and_eq_false_iff, decide_eq_false_iff_not,
    beq_eq_false_iff_ne]
  omega

theorem dropBlanks_eq_self {cs : List Char} (h : ∀ c ∈ cs, isBlank c = false) :
  cs.dropWhile isBlank = cs
  := by
  cases cs with
  | nil => rfl
  | cons c rest => exact List.dropWhile_cons_of_neg (by simp [h c List.mem_cons_self])

/-- The blanks around characters that are none are dropped. -/
theorem trimList_append {before cs after : List Char} (hbefore : ∀ c ∈ before, isBlank c = true)
    (hcs : ∀ c ∈ cs, isBlank c = false) (hafter : ∀ c ∈ after, isBlank c = true) :
  trimList (before ++ (cs ++ after)) = cs
  := by
  rw [trimList, List.dropWhile_append_of_pos hbefore]
  cases cs with
  | nil =>
    rw [List.nil_append, List.dropWhile_eq_nil_iff.mpr hafter]
    rfl
  | cons c rest =>
    have hback : ∀ d ∈ after.reverse, isBlank d = true := by
      intro d hd
      exact hafter d (List.mem_reverse.mp hd)
    have hkept : ∀ d ∈ (c :: rest).reverse, isBlank d = false := by
      intro d hd
      exact hcs d (List.mem_reverse.mp hd)
    rw [List.cons_append, List.dropWhile_cons_of_neg (by simp [hcs c List.mem_cons_self]),
      ← List.cons_append, List.reverse_append, List.dropWhile_append_of_pos hback,
      dropBlanks_eq_self hkept, List.reverse_reverse]

end CardBattle.Text
