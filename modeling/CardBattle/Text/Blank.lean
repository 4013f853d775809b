/-!
# Blanks and numerals

The blanks at the ends of a text, and the whole numbers a text can spell in decimal.
-/

namespace CardBattle.Text

/-- The characters of Unicode that count as white space. -/
def isBlank (c : Char) : Bool :=
  let n := c.toNat
  (0x09 ≤ n && n ≤ 0x0D) || n == 0x20 || n == 0x85 || n == 0xA0 || n == 0x1680
    || (0x2000 ≤ n && n ≤ 0x200A) || n == 0x2028 || n == 0x2029 || n == 0x202F
    || n == 0x205F || n == 0x3000

/-- The characters without the blanks before and after them. -/
def trimList (cs : List Char) : List Char :=
  ((cs.dropWhile isBlank).reverse.dropWhile isBlank).reverse

/-- The text without the blanks before and after it. -/
def trim (s : String) : String :=
  String.ofList (trimList s.toList)

/-- The value of a decimal digit. -/
def digit? (c : Char) : Option Nat :=
  if c.isDigit then some (c.toNat - '0'.toNat) else none

/-- The value of a row of decimal digits that follows digits of value `n`. -/
def digitsFrom (n : Nat) : List Char → Option Nat
  | [] => some n
  | c :: rest =>
      match digit? c with
      | some d => digitsFrom (10 * n + d) rest
      | none => none

/-- The value of a row of decimal digits that is not empty. -/
def digits? : List Char → Option Nat
  | [] => none
  | cs => digitsFrom 0 cs

/-- The value of a decimal numeral, before which a plus sign may stand. -/
def natural? : List Char → Option Nat
  | '+' :: cs => digits? cs
  | cs => digits? cs

/-- The value of a decimal numeral, before which a sign may stand. -/
def integer? : List Char → Option Int
  | '-' :: cs => (digits? cs).map (fun n => -(n : Int))
  | cs => (natural? cs).map Int.ofNat

end CardBattle.Text
