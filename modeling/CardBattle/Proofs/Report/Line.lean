import CardBattle.Cascade.Script
import Mathlib.Tactic.Use

/-!
# Lines about pending choices

A choice that is left to a player has a line in the log, from which the choice can be read
back: the line names its player and its count, in this order, and begins differently for the
two kinds of choices.  No other line that is written is like that: those about a unit contain
the underscore of its uid, and those about a player go on with another word.
-/

namespace CardBattle

/-! ### Numerals -/

/-- The value of the first numeral among characters, and the characters behind it. -/
def Text.firstNumeral (cs : List Char) : Nat × List Char :=
  let numeral := cs.dropWhile fun c => !c.isDigit
  (Nat.ofDigitChars 10 (numeral.takeWhile Char.isDigit) 0, numeral.dropWhile Char.isDigit)

/-- The first numeral is read as the number that it was written for, if there are no digits
before it and none follows. -/
theorem Text.firstNumeral_toDigits {before after : List Char} (n : Nat)
    (hbefore : ∀ c ∈ before, c.isDigit = false) (hafter : ∀ c ∈ after.head?, c.isDigit = false) :
  firstNumeral (before ++ (Nat.toDigits 10 n ++ after)) = (n, after)
  := by
  have hdigits : ∀ c ∈ Nat.toDigits 10 n, c.isDigit = true := by
    intro c hc
    apply Nat.isDigit_of_mem_toDigits (by decide) (by decide) hc
  have hskip : (before ++ (Nat.toDigits 10 n ++ after)).dropWhile (fun c => !c.isDigit)
      = Nat.toDigits 10 n ++ after := by
    rw [List.dropWhile_append_of_pos (by simpa using hbefore)]
    obtain ⟨d, ds, hds⟩ := List.exists_cons_of_ne_nil (@Nat.toDigits_ne_nil n 10)
    rw [hds, List.cons_append, List.dropWhile_cons_of_neg]
    simp [hdigits d (by simp [hds])]
  have hnone : after.takeWhile Char.isDigit = [] ∧ after.dropWhile Char.isDigit = after := by
    cases after with
    | nil => exact ⟨rfl, rfl⟩
    | cons c rest =>
      have hc := hafter c rfl
      simp [hc]
  rw [firstNumeral, hskip, List.takeWhile_append_of_pos hdigits,
    List.dropWhile_append_of_pos hdigits, hnone.1, hnone.2, List.append_nil,
    Nat.ofDigitChars_ten_toDigits]

theorem toList_playerText (player : UInt8) (tail : String) :
  (playerText player ++ tail).toList = ['P'] ++ (Nat.toDigits 10 player.toNat ++ tail.toList)
  := by
  have hnumeral : (toString player).toList = Nat.toDigits 10 player.toNat := Nat.toList_repr
  simp [playerText, hnumeral]

/-- The first numeral of a line about a player is the player's. -/
theorem firstNumeral_playerText (player : UInt8) {tail : String}
    (htail : tail.toList.head? = some ' ') :
  Text.firstNumeral (playerText player ++ tail).toList = (player.toNat, tail.toList)
  := by
  rw [toList_playerText]
  apply Text.firstNumeral_toDigits
  · simp
  · simp [htail]

namespace PendingChoice

/-! ### Lines -/

/-- The player to whom a choice is left. -/
def player : PendingChoice → UInt8
  | revealHandCard player _ => player
  | returnHandCard player _ => player

/-- How many cards a choice is about. -/
def count : PendingChoice → UInt32
  | revealHandCard _ count => count
  | returnHandCard _ count => count

/-- What the line about a choice says behind the player. -/
def demand : PendingChoice → String
  | revealHandCard _ count => " rivela " ++ toString count ++ " carte (in attesa)"
  | returnHandCard _ count => " rimette " ++ toString count ++ " carte nel mazzo (in attesa)"

/-- The line of the log about a choice. -/
def line (choice : PendingChoice) : String :=
  playerText choice.player ++ choice.demand

/-- The choice that a line of the log is about. -/
def ofLine? (s : String) : Option PendingChoice :=
  let (player, rest) := Text.firstNumeral s.toList
  let (count, _) := Text.firstNumeral rest
  let player := UInt8.ofNat player
  let count := UInt32.ofNat count
  [revealHandCard player count, returnHandCard player count].find? fun choice =>
    choice.line = s

theorem demand_reveals {count : UInt32} {player : UInt8} :
  (revealHandCard player count).demand.toList
    = " rivela ".toList ++ (Nat.toDigits 10 count.toNat ++ " carte (in attesa)".toList)
  := by
  have hnumeral : (toString count).toList = Nat.toDigits 10 count.toNat := Nat.toList_repr
  rw [demand, String.toList_append, String.toList_append, hnumeral, List.append_assoc]

theorem demand_returns {count : UInt32} {player : UInt8} :
  (returnHandCard player count).demand.toList
    = " rimette ".toList
      ++ (Nat.toDigits 10 count.toNat ++ " carte nel mazzo (in attesa)".toList)
  := by
  have hnumeral : (toString count).toList = Nat.toDigits 10 count.toNat := Nat.toList_repr
  rw [demand, String.toList_append, String.toList_append, hnumeral, List.append_assoc]

theorem head?_demand (choice : PendingChoice) :
  choice.demand.toList.head? = some ' '
  := by
  cases choice with
  | revealHandCard => simp [demand]
  | returnHandCard => simp [demand]

/-- What is demanded begins with the same two letters for all kinds of choices. -/
theorem getElem?_demand (choice : PendingChoice) :
  choice.demand.toList[1]? = some 'r'
  := by
  cases choice with
  | revealHandCard => simp [demand]
  | returnHandCard => simp [demand]

/-- The first numeral of what is demanded is the count. -/
theorem firstNumeral_demand (choice : PendingChoice) :
  (Text.firstNumeral choice.demand.toList).1 = choice.count.toNat
  := by
  cases choice with
  | revealHandCard =>
    rw [demand_reveals, Text.firstNumeral_toDigits _ (by simp) (by simp)]
    rfl
  | returnHandCard =>
    rw [demand_returns, Text.firstNumeral_toDigits _ (by simp) (by simp)]
    rfl

theorem underscore_not_mem_line (choice : PendingChoice) :
  '_' ∉ choice.line.toList
  := by
  have hdigits (n : Nat) : '_' ∉ Nat.toDigits 10 n := Nat.underscore_not_in_toDigits
  rw [line, toList_playerText]
  cases choice with
  | revealHandCard => simp [demand_reveals, hdigits]
  | returnHandCard => simp [demand_returns, hdigits]

/-- A line about a player is that of a choice of the player if the rest is what is demanded. -/
theorem eq_demand_of_line {choice : PendingChoice} {player : UInt8} {tail : String}
    (htail : tail.toList.head? = some ' ') (h : choice.line = playerText player ++ tail) :
  tail = choice.demand
  := by
  have hread := firstNumeral_playerText choice.player choice.head?_demand
  rw [← line, h, firstNumeral_playerText player htail] at hread
  apply String.toList_injective (Prod.mk.inj hread).2

/-! ### Reading lines -/

/-- What is read from a line is a choice that has this line. -/
theorem line_of_ofLine? {s : String} {choice : PendingChoice} (h : ofLine? s = some choice) :
  choice.line = s
  := by simpa using List.find?_some h

/-- The line of a choice is one of two with its player and count. -/
theorem ofLine?_line_eq_find? (choice : PendingChoice) :
  ofLine? choice.line = [revealHandCard choice.player choice.count,
    returnHandCard choice.player choice.count].find? fun other => other.line = choice.line
  := by
  have hline := firstNumeral_playerText choice.player choice.head?_demand
  rw [← line] at hline
  simp only [ofLine?, hline, firstNumeral_demand, UInt8.ofNat_toNat, UInt32.ofNat_toNat]

/-- A choice is read back from its line. -/
theorem ofLine?_line (choice : PendingChoice) :
  ofLine? choice.line = some choice
  := by
  rw [ofLine?_line_eq_find?]
  cases choice with
  | revealHandCard player count =>
    apply List.find?_cons_of_pos
    apply decide_eq_true rfl
  | returnHandCard player count =>
    have hother : (revealHandCard player count).line ≠ (returnHandCard player count).line := by
      intro h
      have hdemand := eq_demand_of_line (head?_demand _) h.symm
      have hletter := congrArg (fun s => s.toList[3]?) hdemand
      simp [demand] at hletter
    rw [List.find?_cons_of_neg (by simp [PendingChoice.player, PendingChoice.count, hother])]
    apply List.find?_cons_of_pos
    apply decide_eq_true rfl

/-- The choice that a line is about is the one that has this line. -/
theorem ofLine?_eq_some {s : String} {choice : PendingChoice} :
  ofLine? s = some choice ↔ s = choice.line
  := by
  constructor
  · intro h
    exact (line_of_ofLine? h).symm
  · rintro rfl
    apply ofLine?_line

/-! ### Lines about something else -/

theorem ofLine?_of_underscore {s : String} (h : '_' ∈ s.toList) :
  ofLine? s = none
  := by
  cases hread : ofLine? s with
  | none => rfl
  | some choice =>
    rw [ofLine?_eq_some.mp hread] at h
    exact absurd h choice.underscore_not_mem_line

/-- A line about a player is about no choice if it goes on with another letter. -/
theorem ofLine?_playerText (player : UInt8) {tail : String}
    (htail : tail.toList.head? = some ' ') (hletter : tail.toList[1]? ≠ some 'r') :
  ofLine? (playerText player ++ tail) = none
  := by
  cases hread : ofLine? (playerText player ++ tail) with
  | none => rfl
  | some choice =>
    rw [eq_demand_of_line htail (line_of_ofLine? hread)] at hletter
    exact absurd choice.getElem?_demand hletter

/-- A line that does not begin with the letter of a player is about no choice. -/
theorem ofLine?_of_head {s : String} (h : s.toList.head? ≠ some 'P') :
  ofLine? s = none
  := by
  cases hread : ofLine? s with
  | none => rfl
  | some choice =>
    rw [ofLine?_eq_some.mp hread, line, toList_playerText] at h
    exact absurd rfl h

end PendingChoice

/-- The text of a uid contains an underscore, and so no line with it is about a choice. -/
@[simp] theorem Uid.underscore_mem_text (uid : Uid) :
  '_' ∈ uid.text.toList
  := by simp [Uid.text]

/-- What the log calls a unit contains its uid, whatever the name of its card. -/
@[simp] theorem Ruleset.underscore_mem_label (rules : Ruleset) (u : BoardUnit) :
  '_' ∈ (rules.label u).toList
  := by
  rw [label]
  split
  · simp
  · simp

end CardBattle
