import CardBattle.Stat

/-!
# Buffs

A change to a statistic is permanent, or it lasts to the end of the turn, or until the
auras on the boards are worked out anew.  The changes that do not last are kept as buffs.
-/

namespace CardBattle

/-- How long a change to a statistic lasts. -/
inductive Duration
  | permanent
  | endOfCycle
  | aura
deriving DecidableEq

namespace Duration

/-- The name of a duration in JSON. -/
def name : Duration → String
  | .permanent => "PERMANENT"
  | .endOfCycle => "END_OF_CYCLE"
  | .aura => "AURA"

/-- The duration of a name. -/
def ofName? : String → Option Duration
  | "PERMANENT" => some .permanent
  | "END_OF_CYCLE" => some .endOfCycle
  | "AURA" => some .aura
  | _ => none

instance : Json.Codec Duration := .ofNames name ofName?

end Duration

/-- A change to a statistic that is undone when its time is over. -/
structure Buff where
  stat : Stat
  delta : Int32
  expiry : Duration
deriving DecidableEq

instance : Json.Codec Buff where
  encode b := .object [
    ("stat", Json.encode b.stat), ("delta", Json.encode b.delta),
    ("expiry", Json.encode b.expiry)]
  decode input := input.readObject fun fields => Buff.mk
    <$> fields.required "stat" <*> fields.required "delta" <*> fields.required "expiry"

end CardBattle
