import CardBattle.Double.Parts
import CardBattle.Json.Codec
import CardBattle.Text.Blank
import CardBattle.Text.Case
import CardBattle.Word

/-!
# Statistics

A unit has four statistics.  A card gives their base values, and is read leniently: the
case of a name does not matter, and what is no number counts as zero.
-/

namespace CardBattle

/-- The statistics of a unit. -/
inductive Stat
  | vitality
  | impact
  | defence
  | velocity
deriving DecidableEq

namespace Stat

/-- The name of a statistic in JSON. -/
def name : Stat → String
  | .vitality => "vit"
  | .impact => "imp"
  | .defence => "def"
  | .velocity => "vel"

/-- The name of a statistic in the log. -/
def label : Stat → String
  | .vitality => "VIT"
  | .impact => "IMP"
  | .defence => "DEF"
  | .velocity => "VEL"

/-- A statistic is read from either of its names. -/
def ofName? : String → Option Stat
  | "vit" => some .vitality
  | "VIT" => some .vitality
  | "imp" => some .impact
  | "IMP" => some .impact
  | "def" => some .defence
  | "DEF" => some .defence
  | "vel" => some .velocity
  | "VEL" => some .velocity
  | _ => none

instance : Json.Codec Stat := .ofNames name ofName?

end Stat

/-- A value for every statistic. -/
structure StatLine where
  vitality : Int32 := 0
  impact : Int32 := 0
  defence : Int32 := 0
  velocity : Int32 := 0
deriving DecidableEq

namespace StatLine

/-- The integer nearest `n` among those of 64 bits. -/
def clamp64 (n : Int) : Int :=
  max (-0x8000000000000000) (min n 0x7fffffffffffffff)

/-- The word for a number: its integral part is brought into the range of 64 bits, and the
lowest 32 of them are kept. -/
def ofNumber : Json.Number → Int32
  | .integer n => Int32.ofInt (clamp64 n)
  | .real x =>
      match Double.parts? x with
      | some p => Int32.ofInt (clamp64 p.truncate)
      | none => 0

/-- The word for a value: a number, or a text that spells a word; zero for anything
else. -/
def ofJson : Json → Int32
  | .number n => ofNumber n
  | .string s =>
      match Text.integer? (Text.trimList s.toList) with
      | some n => if -0x80000000 ≤ n ∧ n < 0x80000000 then Int32.ofInt n else 0
      | none => 0
  | _ => 0

/-- The value of the first field whose name passes a test. -/
def valueWhere? (fields : Json.Fields) (p : String → Bool) : Option Json :=
  (fields.find? (fun f => p f.1)).map (·.2)

/-- The value of a statistic: that of the field with its name as it is, else of the one
with its label, else of one that has its name in any case. -/
def lookup (fields : Json.Fields) (stat : Stat) : Int32 :=
  let found? := valueWhere? fields (· = stat.name)
    <|> valueWhere? fields (· = stat.label)
    <|> valueWhere? fields (Text.sameLetters stat.name)
  match found? with
  | some v => ofJson v
  | none => 0

/-- The values that the fields of an object give. -/
def ofFields (fields : Json.Fields) : StatLine :=
  { vitality := lookup fields .vitality
    impact := lookup fields .impact
    defence := lookup fields .defence
    velocity := lookup fields .velocity }

instance : Json.Codec StatLine where
  encode s := .object [
    ("vit", Json.encode s.vitality), ("imp", Json.encode s.impact),
    ("def", Json.encode s.defence), ("vel", Json.encode s.velocity)]
  decode input := do
    if input.isNull then return {}
    else return ofFields (← (← input.members).whole.result)

end StatLine

end CardBattle
