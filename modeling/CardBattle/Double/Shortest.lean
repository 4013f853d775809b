import CardBattle.Double.Parts

/-!
# The shortest decimal of a double

A double is written with the fewest digits that read back as it, and of those with the
digits nearest its value.  `Double.shortest` finds the digits and the exponent of ten,
`Double.text` lays them out: as a plain decimal when the point is at most sixteen places
to the right and four to the left of the first digit, with an exponent otherwise, and
always so that the text is not that of an integer.
-/

namespace CardBattle.Double

/-- A positive value together with the ends of the interval of numbers that round to it,
all over one denominator. -/
structure Neighbourhood where
  low : Nat
  value : Nat
  high : Nat
  denominator : Nat
  /-- The ends of the interval round to the value. -/
  closed : Bool

/-- The neighbourhood of a positive double. -/
def Parts.neighbourhood (p : Parts) : Neighbourhood :=
  let m := p.significand
  -- Below a power of two the doubles are twice as dense.
  let gap := if m = Nat.pow 2 52 ∧ 0 < p.scale then 1 else 2
  let up := Nat.pow 2 (p.scale - 1076)
  { low := (4 * m - gap) * up
    value := 4 * m * up
    high := (4 * m + 2) * up
    denominator := Nat.pow 2 (1076 - p.scale)
    closed := m % 2 = 0 }

/-- Whether the number `n / d` lies in the neighbourhood. -/
def Neighbourhood.holds (b : Neighbourhood) (n d : Nat) : Bool :=
  let x := n * b.denominator
  if b.closed then b.low * d ≤ x && x ≤ b.high * d else b.low * d < x && x < b.high * d

/-- The multiple of `10 ^ k` in the neighbourhood that is nearest the value, as a count of
`10 ^ k`; the even one of two that are equally near. -/
def Neighbourhood.onGrid? (b : Neighbourhood) (k : Int) : Option Nat :=
  let unit := Nat.pow 10 k.toNat
  let d := Nat.pow 10 (-k).toNat
  let below := b.value * d / (b.denominator * unit)
  let rest := b.value * d % (b.denominator * unit)
  let above := below + 1
  match b.holds (below * unit) d, b.holds (above * unit) d with
  | true, true =>
      if 2 * rest < b.denominator * unit then some below
      else if b.denominator * unit < 2 * rest then some above
      else some (if below % 2 = 0 then below else above)
  | true, false => some below
  | false, true => some above
  | false, false => none

/-- The count and the exponent of the first grid, of `steps` grids from `10 ^ k` down, that
has a point in the neighbourhood. -/
def Neighbourhood.search (b : Neighbourhood) : Nat → Int → Nat × Int
  | 0, k => (0, k)
  | steps + 1, k =>
      match b.onGrid? k with
      | some n => (n, k)
      | none => b.search steps (k - 1)

/-- The digits of the shortest decimal of a positive double as a number `n`, and the
exponent `k` for which the decimal is `n · 10 ^ k`. -/
def shortest (p : Parts) : Nat × Int :=
  -- The first grid is above the value, and seventeen digits are always enough.
  let magnitude : Int := (Nat.log2 p.significand + 1 + p.scale : Nat) - 1074
  p.neighbourhood.search 24 (magnitude * 30103 / 100000 + 2)

/-- The text of the decimal `n · 10 ^ k`, for a positive `n`. -/
def layOut (n : Nat) (k : Int) : String :=
  let digits := Nat.toDigits 10 n
  let count := digits.length
  let point : Int := count + k
  if 0 ≤ k ∧ point ≤ 16 then
    String.ofList (digits ++ List.replicate k.toNat '0' ++ ['.', '0'])
  else if 0 < point ∧ point ≤ 16 then
    String.ofList (digits.take point.toNat ++ '.' :: digits.drop point.toNat)
  else if -5 < point ∧ point ≤ 0 then
    String.ofList ('0' :: '.' :: List.replicate (-point).toNat '0' ++ digits)
  else
    let exponent := point - 1
    let sign := if exponent < 0 then "-" else "+"
    let body := digits.take 1 ++ (if count = 1 then [] else '.' :: digits.drop 1)
    String.ofList body ++ "e" ++ sign ++ toString exponent.natAbs

/-- The text of a double; a value that is not finite has the text of the absent value. -/
def text (x : Float) : String :=
  match parts? x with
  | none => "null"
  | some p =>
      let sign := if p.negative then "-" else ""
      if p.significand = 0 then sign ++ "0.0"
      else
        let (n, k) := shortest p
        sign ++ layOut n k

end CardBattle.Double
