import CardBattle.Cell
import CardBattle.Uid

/-!
# Actions

What a player can do in a battle.
-/

namespace CardBattle

/-- An action of a player. -/
inductive Action
  | playUnit (player : UInt8) (handIndex : UInt64) (cell : Cell)
  | move (player : UInt8) (unit : Uid) (cell : Cell)
  | attack (player : UInt8) (attacker target : Uid)
  | activate (player : UInt8) (unit : Uid) (slot : UInt8) (target : Option Uid)
  | endTurn (player : UInt8)
deriving DecidableEq

namespace Action

/-- The player who acts. -/
def player : Action → UInt8
  | .playUnit player _ _ => player
  | .move player _ _ => player
  | .attack player _ _ => player
  | .activate player _ _ _ => player
  | .endTurn player => player

open Json (Fields Input Kinds Members Reading ReadFault decode encode)

/-- The cell that the fields of an action name; its column may be called a slot. -/
def readCell (fields : Members) : Reading Cell :=
  Cell.mk <$> fields.required "lane" <*> fields.requiredAs ["column", "slot"] decode

/-- The target that the payload of an activation names. -/
def readPayload (input : Input) : Except ReadFault (Option Uid) :=
  input.readObject fun fields => fields.optional "targetUid"

/-- The kinds of actions. -/
def kinds : Kinds where
  names := ["PLAY_UNIT", "MOVE", "ATTACK", "ACTIVATE_ABILITY", "END_TURN"]

instance : Json.Codec Action where
  encode
    | .playUnit player handIndex cell =>
        .tagged "type" "PLAY_UNIT" [("player", encode player), ("handIndex", encode handIndex),
          ("lane", encode cell.lane), ("column", encode cell.column)]
    | .move player unit cell =>
        .tagged "type" "MOVE" [("player", encode player), ("unitUid", encode unit),
          ("lane", encode cell.lane), ("column", encode cell.column)]
    | .attack player attacker target =>
        .tagged "type" "ATTACK" [("player", encode player), ("attackerUid", encode attacker),
          ("targetUid", encode target)]
    | .activate player unit slot target =>
        .tagged "type" "ACTIVATE_ABILITY" [("player", encode player),
          ("unitUid", encode unit), ("slot", encode slot),
          ("payload", .object (Fields.ofOption "targetUid" target))]
    | .endTurn player => .tagged "type" "END_TURN" [("player", encode player)]
  decode input := input.readTagged "type" kinds fun kind fields => match kind with
    | "PLAY_UNIT" => .playUnit <$> fields.required "player" <*> fields.required "handIndex"
        <*> readCell fields
    | "MOVE" => .move <$> fields.required "player" <*> fields.required "unitUid"
        <*> readCell fields
    | "ATTACK" => .attack <$> fields.required "player" <*> fields.required "attackerUid"
        <*> fields.required "targetUid"
    | "ACTIVATE_ABILITY" => .activate <$> fields.required "player"
        <*> fields.required "unitUid" <*> fields.required "slot"
        <*> fields.readAs ["payload"] readPayload (.value none)
    | "END_TURN" => .endTurn <$> fields.required "player"
    | _ => fields.missing

end Action

end CardBattle
