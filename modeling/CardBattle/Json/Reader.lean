import CardBattle.Double.Decimal
import CardBattle.Json.Written
import CardBattle.Text.Blank

/-!
# Reading JSON text

The grammar is the strict one: no comments, no trailing commas, no leading zeros and no
characters below the space in strings.  A number is without value if it has a point or an
exponent and is beyond the range of doubles, and so is a string with surrogates that do not
come in pairs.

`Json.front` tells what stands at the front of a text and returns the characters behind it,
unless the text is ill formed there.  Each reader calls the next with less fuel, and `front`
provides enough of it for every character of the text.  `Json.parse?` is the value of a
whole text, in which arrays and objects may be nested 127 deep.
-/

namespace CardBattle.Json

/-- The blanks between the tokens of a text. -/
def isBlank (c : Char) : Bool :=
  c == ' ' || c == '\t' || c == '\n' || c == '\r'

/-- The characters from the first that is no blank on. -/
def skipBlanks (cs : List Char) : List Char :=
  cs.dropWhile isBlank

/-! ### Numbers -/

/-- A number as its digits spell it. -/
structure Numeral where
  negative : Bool
  whole : List Nat
  fraction : List Nat
  exponent : Option Int

/-- The values of the decimal digits at the front, and the characters behind them. -/
def readDigits (cs : List Char) : List Nat × List Char :=
  (((cs.takeWhile Char.isDigit).filterMap Text.digit?), cs.dropWhile Char.isDigit)

/-- The number that a row of digits spells. -/
def digitsValue (digits : List Nat) : Nat :=
  digits.foldl (fun n d => 10 * n + d) 0

/-- The digits behind a point, if there is one; at least one must follow it. -/
def readFraction? : List Char → Option (List Nat × List Char)
  | '.' :: cs =>
      match readDigits cs with
      | ([], _) => none
      | (digits, rest) => some (digits, rest)
  | cs => some ([], cs)

/-- The digits of an exponent behind its sign. -/
def readExponentDigits? (negative : Bool) (cs : List Char) :
    Option (Option Int × List Char) :=
  match readDigits cs with
  | ([], _) => none
  | (digits, rest) =>
      let n : Int := digitsValue digits
      some (some (if negative then -n else n), rest)

/-- The exponent, if there is one; at least one digit must follow its mark. -/
def readExponent? : List Char → Option (Option Int × List Char)
  | 'e' :: '-' :: cs => readExponentDigits? true cs
  | 'E' :: '-' :: cs => readExponentDigits? true cs
  | 'e' :: '+' :: cs => readExponentDigits? false cs
  | 'E' :: '+' :: cs => readExponentDigits? false cs
  | 'e' :: cs => readExponentDigits? false cs
  | 'E' :: cs => readExponentDigits? false cs
  | cs => some (none, cs)

/-- A number behind its sign. -/
def readUnsigned? (negative : Bool) (cs : List Char) : Option (Numeral × List Char) := do
  let (whole, rest) := readDigits cs
  match whole with
  | [] => none
  | 0 :: _ :: _ => none
  | _ =>
      let (fraction, rest) ← readFraction? rest
      let (exponent, rest) ← readExponent? rest
      return ({ negative, whole, fraction, exponent }, rest)

/-- A number at the front of a text. -/
def readNumeral? : List Char → Option (Numeral × List Char)
  | '-' :: cs => readUnsigned? true cs
  | cs => readUnsigned? false cs

/-- The number that is spelled, unless it is beyond the range of doubles.  Without a point
and an exponent it is an integer if 64 bits can hold it, with a sign or without; minus zero
is a double. -/
def Numeral.number? (n : Numeral) : Option Number :=
  let real :=
    (Double.ofDecimal? n.negative n.whole n.fraction (n.exponent.getD 0)).map Number.real
  match n.fraction, n.exponent with
  | [], none =>
      let size := digitsValue n.whole
      if n.negative then
        if 0 < size ∧ size ≤ 0x8000000000000000 then some (.integer (-size)) else real
      else if size < UInt64.size then some (.integer size) else real
  | _, _ => real

/-! ### Strings -/

/-- The value of a hexadecimal digit. -/
def hexDigit? (c : Char) : Option Nat :=
  if c.isDigit then some (c.toNat - '0'.toNat)
  else if 'a' ≤ c ∧ c ≤ 'f' then some (c.toNat - 'a'.toNat + 10)
  else if 'A' ≤ c ∧ c ≤ 'F' then some (c.toNat - 'A'.toNat + 10)
  else none

/-- The number that four hexadecimal digits spell. -/
def hexNumber? (a b c d : Char) : Option Nat := do
  return (((← hexDigit? a) * 16 + (← hexDigit? b)) * 16 + (← hexDigit? c)) * 16
    + (← hexDigit? d)

/-- The character that a single letter behind a backslash stands for. -/
def escaped? : Char → Option Char
  | '"' => some '"'
  | '\\' => some '\\'
  | '/' => some '/'
  | 'b' => some '\x08'
  | 'f' => some '\x0c'
  | 'n' => some '\n'
  | 'r' => some '\r'
  | 't' => some '\t'
  | _ => none

/-- Whether the number is that of a surrogate that begins a pair. -/
def isHighSurrogate (n : Nat) : Bool :=
  0xD800 ≤ n && n < 0xDC00

/-- Whether the number is that of a surrogate that ends a pair. -/
def isLowSurrogate (n : Nat) : Bool :=
  0xDC00 ≤ n && n < 0xE000

/-- The escape of a surrogate that ends a pair, and what follows it. -/
def readLowSurrogate? : List Char → Option (Nat × List Char)
  | '\\' :: 'u' :: a :: b :: c :: d :: rest => do
      let n ← hexNumber? a b c d
      if isLowSurrogate n then some (n, rest) else none
  | _ => none

/-- One character of a string, which may be written as an escape, and what follows it.  The
escape of a surrogate without its other half gives no character. -/
def readChar? : List Char → Option (Option Char × List Char)
  | '\\' :: 'u' :: a :: b :: c :: d :: rest => do
      let n ← hexNumber? a b c d
      if isLowSurrogate n then some (none, rest)
      else if isHighSurrogate n then
        match readLowSurrogate? rest with
        | some (low, rest) =>
            some (some (Char.ofNat (0x10000 + (n - 0xD800) * 0x400 + (low - 0xDC00))), rest)
        | none => some (none, rest)
      else some (some (Char.ofNat n), rest)
  | '\\' :: c :: rest => (escaped? c).map fun character => (some character, rest)
  | c :: rest => if c.toNat < 0x20 ∨ c = '\\' then none else some (some c, rest)
  | [] => none

/-- The text of a string up to the quote that ends it, behind the characters read before,
the last of which comes first; there is no such text if one of the characters is missing. -/
def readString? : Nat → Option (List Char) → List Char → Option (Option String × List Char)
  | 0, _, _ => none
  | _ + 1, read?, '"' :: rest => some (read?.map fun read => String.ofList read.reverse, rest)
  | fuel + 1, read?, cs => do
      let (c?, rest) ← readChar? cs
      let read? := match c?, read? with
        | some c, some read => some (c :: read)
        | _, _ => none
      readString? fuel read? rest

/-! ### Values -/

/-- The leaf for a value, if there is one. -/
def Written.ofOption : Option Json → Written
  | some v => .leaf v
  | none => .void

/-- A number at the front of a text, and the characters behind it. -/
def readNumber (cs : List Char) : Written × Option (List Char) :=
  match readNumeral? cs with
  | some (n, rest) => (.ofOption (n.number?.map Json.number), some rest)
  | none => (.broken, none)

mutual

/-- What stands at the front of a text, and the characters behind it. -/
def readFront : Nat → List Char → Written × Option (List Char)
  | 0, _ => (.broken, none)
  | fuel + 1, cs =>
      match skipBlanks cs with
      | 'n' :: 'u' :: 'l' :: 'l' :: rest => (.leaf .null, some rest)
      | 't' :: 'r' :: 'u' :: 'e' :: rest => (.leaf (.bool true), some rest)
      | 'f' :: 'a' :: 'l' :: 's' :: 'e' :: rest => (.leaf (.bool false), some rest)
      | '"' :: rest =>
          match readString? fuel (some []) rest with
          | some (s?, rest) => (.ofOption (s?.map Json.string), some rest)
          | none => (.broken, none)
      | '[' :: rest =>
          match skipBlanks rest with
          | ']' :: rest => (.array [] true, some rest)
          | rest =>
              let (items, rest?) := readItems fuel rest
              (.array items rest?.isSome, rest?)
      | '{' :: rest =>
          match skipBlanks rest with
          | '}' :: rest => (.object [] true, some rest)
          | rest =>
              let (fields, rest?) := readFields fuel rest
              (.object fields rest?.isSome, rest?)
      | rest => readNumber rest

/-- The items of an array that is not empty, up to its end. -/
def readItems : Nat → List Char → List Written × Option (List Char)
  | 0, _ => ([], none)
  | fuel + 1, cs =>
      match readFront fuel cs with
      | (w, none) => ([w], none)
      | (w, some rest) =>
          match skipBlanks rest with
          | ']' :: rest => ([w], some rest)
          | ',' :: rest =>
              let (items, rest?) := readItems fuel rest
              (w :: items, rest?)
          | _ => ([w], none)

/-- The fields of an object that is not empty, up to its end. -/
def readFields : Nat → List Char → List (Name × Written) × Option (List Char)
  | 0, _ => ([], none)
  | fuel + 1, cs =>
      match skipBlanks cs with
      | '"' :: rest =>
          let spelling := rest.takeWhile (fun c => c != '"')
          match readString? fuel (some []) rest with
          | none => ([(⟨none, spelling⟩, .broken)], none)
          | some (name?, rest) =>
              let name : Name := ⟨name?, spelling⟩
              match skipBlanks rest with
              | ':' :: rest =>
                  match readFront fuel rest with
                  | (w, none) => ([(name, w)], none)
                  | (w, some rest) =>
                      match skipBlanks rest with
                      | '}' :: rest => ([(name, w)], some rest)
                      | ',' :: rest =>
                          let (fields, rest?) := readFields fuel rest
                          ((name, w) :: fields, rest?)
                      | _ => ([(name, w)], none)
              | _ => ([(name, .broken)], none)
      | _ => ([], none)

end

/-- What stands at the front of a text, and the characters behind it unless the text is ill
formed there. -/
def front (text : String) : Written × Option (List Char) :=
  let cs := text.toList
  readFront (2 * cs.length + 2) cs

/-- How deep arrays and objects may be nested in a value. -/
def maxNesting : Nat := 127

/-- The value that a text spells. -/
def parse? (text : String) : Option Json :=
  match front text with
  | (w, some rest) => if rest.all isBlank then w.value? maxNesting else none
  | (_, none) => none

end CardBattle.Json
