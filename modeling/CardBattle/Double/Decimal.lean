/-!
# Doubles from decimal numerals

A decimal numeral with a point or an exponent becomes a double in two steps: its leading
digits, as many as 64 bits hold, are rounded to a double, which is then multiplied or
divided by a power of ten.  `Double.ofDecimal?` fails if the result is not finite.
-/

namespace CardBattle.Double

/-- The number that the first digits spell behind `n`, for as long as it stays below
`2 ^ 64`, and the digits that are left. -/
def gather (n : Nat) : List Nat → Nat × List Nat
  | [] => (n, [])
  | d :: rest => if 10 * n + d < UInt64.size then gather (10 * n + d) rest else (n, d :: rest)

/-- The double nearest `10 ^ k`. -/
def powerOfTen (k : Nat) : Float :=
  Float.ofScientific 1 false k

/-- The double `x` divided by ten `k` times, in steps of at most 308. -/
def divideByTens (x : Float) (k : Nat) : Float :=
  if k ≤ 308 then x / powerOfTen k
  else if x == 0 then x
  else divideByTens (x / powerOfTen 308) (k - 308)
termination_by k

/-- The double `x` multiplied by ten `k` times, if that is finite. -/
def multiplyByTens? (x : Float) (k : Nat) : Option Float :=
  if k ≤ 308 then
    let y := x * powerOfTen k
    if y.isInf then none else some y
  else if x == 0 then some x
  else none

/-- The double for the digits `whole` before the point, the digits `fraction` behind it
and the exponent of ten `exponent`; `none` if it would not be finite. -/
def ofDecimal? (negative : Bool) (whole fraction : List Nat) (exponent : Int) :
    Option Float :=
  let (n, dropped) := gather 0 whole
  let (m, unread) := gather n fraction
  let scale : Int := dropped.length - (fraction.length - unread.length : Nat) + exponent
  let x := (UInt64.ofNat m).toFloat
  let size? := if 0 ≤ scale then multiplyByTens? x scale.toNat
    else some (divideByTens x (-scale).toNat)
  size?.map (fun y => if negative then -y else y)

/-- The double nearest an integer. -/
def ofInt (n : Int) : Float :=
  Float.ofInt n

end CardBattle.Double
