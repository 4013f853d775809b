import CardBattle.Json.Codec
import CardBattle.Text.Case

/-!
# Statuses

A unit can be in any number of statuses, which are known by their names regardless of
case.  Some of them are negative.
-/

namespace CardBattle

/-- A status of a unit. -/
structure Status where
  name : String
  detail : Option String := none
deriving DecidableEq

namespace Status

/-- The names of the negative statuses. -/
def negativeNames : List String :=
  ["STUN", "POISON", "BLEED", "BURN", "WEAKEN", "SILENCE", "ROOT", "FEAR"]

/-- Whether the status has the name. -/
def isNamed (s : Status) (name : String) : Bool :=
  Text.sameLetters s.name name

/-- Whether the status is a negative one. -/
def isNegative (s : Status) : Bool :=
  negativeNames.any s.isNamed

instance : Json.Codec Status where
  encode s := .object (("name", Json.encode s.name) :: Json.Fields.ofOption "meta" s.detail)
  decode input := input.readObject fun fields =>
    Status.mk <$> fields.required "name" <*> fields.optional "meta"

end Status

end CardBattle
