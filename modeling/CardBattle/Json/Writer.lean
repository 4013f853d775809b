import CardBattle.Double.Shortest
import CardBattle.Json.Value

/-!
# Writing JSON text

The text of a value has no blanks between its tokens.  In strings only the quote, the
backslash and the characters below the space are escaped.
-/

namespace CardBattle.Json

/-- The hexadecimal digit of a number below sixteen. -/
def hexChar (n : Nat) : Char :=
  Char.ofNat (if n < 10 then 0x30 + n else 0x57 + n)

/-- A character as it stands in a string. -/
def escape (c : Char) : List Char :=
  match c with
  | '"' => ['\\', '"']
  | '\\' => ['\\', '\\']
  | '\n' => ['\\', 'n']
  | '\r' => ['\\', 'r']
  | '\t' => ['\\', 't']
  | '\x08' => ['\\', 'b']
  | '\x0c' => ['\\', 'f']
  | c =>
      if c.toNat < 0x20 then ['\\', 'u', '0', '0', hexChar (c.toNat / 16), hexChar (c.toNat % 16)]
      else [c]

/-- A string between quotes. -/
def quote (s : String) : String :=
  String.ofList ('"' :: s.toList.flatMap escape ++ ['"'])

/-- The text of a number. -/
def Number.text : Number → String
  | .integer n => toString n
  | .real x => Double.text x

mutual

/-- The text `before` followed by the text of a value. -/
def write (before : String) : Json → String
  | .null => before ++ "null"
  | .bool true => before ++ "true"
  | .bool false => before ++ "false"
  | .number n => before ++ n.text
  | .string s => before ++ quote s
  | .array items => writeItems (before ++ "[") "" items ++ "]"
  | .object fields => writeFields (before ++ "\x7b") "" fields ++ "\x7d"

/-- The text `before` followed by the items, the first behind `mark` and the others behind
a comma. -/
def writeItems (before mark : String) : List Json → String
  | [] => before
  | v :: rest => writeItems (write (before ++ mark) v) "," rest

/-- The text `before` followed by the fields, the first behind `mark` and the others behind
a comma. -/
def writeFields (before mark : String) : List (String × Json) → String
  | [] => before
  | (name, v) :: rest =>
      writeFields (write (before ++ mark ++ quote name ++ ":") v) "," rest

end

/-- The text of a value. -/
def render (v : Json) : String :=
  write "" v

end CardBattle.Json
