import CardBattle.Json.Codec

/-!
# Settings

The numbers of a battle that can be set.
-/

namespace CardBattle

/-- The numbers of a battle that can be set. -/
structure Settings where
  /-- A player with so many units cannot play another one. -/
  maxUnits : UInt64 := 6
  /-- Events nested deeper than this are not broadcast. -/
  maxTriggerDepth : UInt32 := 16
  /-- The number of cards of a hand in a playtest. -/
  playtestHandSize : UInt64 := 7
  /-- The number of lines shown from the end of the log. -/
  logTail : UInt64 := 30
  /-- The number of actions that can be undone. -/
  undoDepth : UInt64 := 64
deriving DecidableEq

open Json (decode encode)

instance : Json.Codec Settings where
  encode s := .object [
    ("maxUnits", encode s.maxUnits), ("maxTriggerDepth", encode s.maxTriggerDepth),
    ("playtestHandSize", encode s.playtestHandSize), ("logTail", encode s.logTail),
    ("undoDepth", encode s.undoDepth)]
  decode input := input.readObject fun fields =>
    let default : Settings := {}
    Settings.mk
      <$> fields.defaulted "maxUnits" default.maxUnits
      <*> fields.defaulted "maxTriggerDepth" default.maxTriggerDepth
      <*> fields.defaulted "playtestHandSize" default.playtestHandSize
      <*> fields.defaulted "logTail" default.logTail
      <*> fields.defaulted "undoDepth" default.undoDepth

end CardBattle
