import CardBattle.Json.Codec

/-!
# Unit filters

A filter selects units relative to one unit: by the side they are on, by the faction and
the class of their cards.
-/

namespace CardBattle

/-- The side of a unit, seen from another. -/
inductive Allegiance
  | ally
  | enemy
  | any
deriving DecidableEq

namespace Allegiance

/-- The name of an allegiance in JSON. -/
def name : Allegiance → String
  | .ally => "ALLY"
  | .enemy => "ENEMY"
  | .any => "ANY"

/-- The allegiance of a name. -/
def ofName? : String → Option Allegiance
  | "ALLY" => some .ally
  | "ENEMY" => some .enemy
  | "ANY" => some .any
  | _ => none

instance : Json.Codec Allegiance := .ofNames name ofName?

end Allegiance

/-- Selects units relative to one of them. -/
structure UnitFilter where
  allegiance : Allegiance := .ally
  faction : Option String := none
  unitClass : Option String := none
  /-- The unit itself may be selected. -/
  includesSelf : Bool := true
deriving DecidableEq

instance : Json.Codec UnitFilter where
  encode f := .object (
    ("side", Json.encode f.allegiance)
      :: Json.Fields.ofOption "faction" f.faction
      ++ Json.Fields.ofOption "class" f.unitClass
      ++ [("includeSelf", Json.encode f.includesSelf)])
  decode input := input.readObject fun fields => UnitFilter.mk
    <$> fields.defaulted "side" .ally
    <*> fields.optional "faction"
    <*> fields.optional "class"
    <*> fields.defaulted "includeSelf" true

end CardBattle
