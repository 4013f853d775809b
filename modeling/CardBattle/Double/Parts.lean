import CardBattle.Word

/-!
# The parts of a double

A finite double is `± significand · 2 ^ (scale − 1074)`.  `Double.parts?` reads sign,
significand and scale off its bits, and `Double.floorWord` is the signed word nearest the
floor of a double.
-/

namespace CardBattle.Double

/-- The parts of a finite double: its value is the significand times two to the power
`scale − 1074`, negated if `negative`. -/
structure Parts where
  negative : Bool
  significand : Nat
  scale : Nat
deriving DecidableEq

/-- Whether the bit of the sign is set. -/
def isNegative (x : Float) : Bool :=
  x.toBits.toNat / Nat.pow 2 63 == 1

/-- The parts of a double; an infinity and a value that is no number have none. -/
def parts? (x : Float) : Option Parts :=
  let bits := x.toBits.toNat
  let exponent := bits / Nat.pow 2 52 % Nat.pow 2 11
  let fraction := bits % Nat.pow 2 52
  if exponent = 0 then some ⟨isNegative x, fraction, 0⟩
  else if exponent = Nat.pow 2 11 - 1 then none
  else some ⟨isNegative x, Nat.pow 2 52 + fraction, exponent - 1⟩

/-- The greatest integer that is not above the value of the parts. -/
def Parts.floor (p : Parts) : Int :=
  let n : Int := p.significand
  let signed := if p.negative then -n else n
  if 1074 ≤ p.scale then signed * Nat.pow 2 (p.scale - 1074)
  else signed / Nat.pow 2 (1074 - p.scale)

/-- The integer next to the value of the parts in the direction of zero. -/
def Parts.truncate (p : Parts) : Int :=
  let n : Int := p.significand
  let size :=
    if 1074 ≤ p.scale then n * Nat.pow 2 (p.scale - 1074) else n / Nat.pow 2 (1074 - p.scale)
  if p.negative then -size else size

/-- The signed word nearest the floor of a double; a value that is no number gives zero. -/
def floorWord (x : Float) : Int32 :=
  match parts? x with
  | some p => Word.nearest p.floor
  | none =>
      if x.isNaN then 0
      else if isNegative x then Word.nearest (-0x80000000) else Word.nearest 0x7fffffff

end CardBattle.Double
