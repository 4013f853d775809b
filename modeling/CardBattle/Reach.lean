import CardBattle.Json.Codec

/-!
# Reach

A unit in the back lane attacks only if it has been granted a reach, which also says which
lanes of the opponent its attacks can reach.
-/

namespace CardBattle

/-- The lanes that an attack from the back lane can reach. -/
inductive Reach
  /-- The front lane, even if it is empty. -/
  | frontLane
  /-- The front lane, and the back lane when the front lane is empty. -/
  | standard
  | allLanes
deriving DecidableEq

namespace Reach

/-- The name of a reach in JSON. -/
def name : Reach → String
  | .frontLane => "FRONT_LANE"
  | .standard => "STANDARD"
  | .allLanes => "ALL_LANES"

/-- The reach of a name. -/
def ofName? : String → Option Reach
  | "FRONT_LANE" => some .frontLane
  | "STANDARD" => some .standard
  | "ALL_LANES" => some .allLanes
  | _ => none

instance : Json.Codec Reach := .ofNames name ofName?

end Reach

end CardBattle
