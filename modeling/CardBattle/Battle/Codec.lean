import CardBattle.Battle.Basic

/-!
# Battles in JSON

A battle is written whole, or as a snapshot, which gives the length of the log instead of
the log.
-/

namespace CardBattle

open Json (Fields Input ReadFault encode nextItem)

namespace Battle

/-- The two sides that a list of exactly two gives. -/
def readSides (input : Input) : Except ReadFault (Side × Side) :=
  input.readItems do
    return (← nextItem, ← nextItem)

/-- The battle with the parts that its fields give. -/
def ofParts (version : String) (seed : UInt64) (turn : UInt32) (activePlayer : UInt8)
    (sides : Side × Side) (log : List String) (firstAttacker : Option Uid)
    (uids : UidCounter) : Battle :=
  { version, seed, turn, activePlayer, side0 := sides.1, side1 := sides.2, log,
    firstAttacker, uids }

/-- The fields that every form of a battle has. -/
def commonFields (b : Battle) : Fields :=
  [("version", encode b.version), ("seed", encode b.seed), ("turn", encode b.turn),
    ("activePlayer", encode b.activePlayer), ("players", encode [b.side0, b.side1])]
    ++ Fields.ofOption "firstAttacker" b.firstAttacker
    ++ [("uids", encode b.uids)]

instance : Json.Codec Battle where
  encode b := .object (b.commonFields ++ [("log", encode b.log)])
  decode input := input.readObject fun fields => ofParts
    <$> fields.required "version"
    <*> fields.defaulted "seed" 0
    <*> fields.required "turn"
    <*> fields.required "activePlayer"
    <*> fields.requiredAs ["players"] readSides
    <*> fields.defaulted "log" []
    <*> fields.optional "firstAttacker"
    <*> fields.defaulted "uids" {}

/-- The battle without its log. -/
def withoutLog (b : Battle) : Json :=
  .object b.commonFields

/-- The battle with the length of its log in place of the log. -/
def snapshot (b : Battle) : Json :=
  .object (b.commonFields ++ [("logLen", Json.ofNat b.log.length)])

end Battle

end CardBattle
