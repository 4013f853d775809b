import CardBattle.Battle.Integrity

/-!
# Rejections

Why an action is not accepted.
-/

namespace CardBattle

/-- Why an action is not accepted. -/
inductive Rejection
  | unknownPlayer (player : UInt8)
  | handIndexOutOfRange (index : UInt64)
  | unknownCard (cardId : String)
  | notAUnitCard (cardId : String)
  | boardFull
  | cellUnavailable (cell : Cell)
  | unitNotFound (uid : Uid)
  | notOwner (uid : Uid) (player : UInt8)
  | alreadyAttacked (uid : Uid)
  | cannotAttackFromLane (uid : Uid)
  | illegalAttackTarget (attacker target : Uid)
  | abilityNotFound (uid : Uid) (slot : UInt8)
  | abilityPrevented (uid : Uid) (turn : UInt32)
  | onCooldown (uid : Uid) (slot : UInt8) (remaining : UInt32)
  | noUsesRemaining (uid : Uid) (slot : UInt8)
  | alreadyUsedThisTurn (uid : Uid) (slot : UInt8)
  | cannotPayCost (required : UInt32) (available : UInt64)
  | missingAbilityTarget (uid : Uid) (slot : UInt8)
  | illegalAbilityTarget (target : Uid)
  | corrupt (corruption : Corruption)
deriving DecidableEq

namespace Rejection

/-- The name of the kind of rejection. -/
def kind : Rejection → String
  | .unknownPlayer _ => "UnknownPlayer"
  | .handIndexOutOfRange _ => "HandIndexOutOfRange"
  | .unknownCard _ => "UnknownCard"
  | .notAUnitCard _ => "NotAUnitCard"
  | .boardFull => "BoardFull"
  | .cellUnavailable _ => "CellUnavailable"
  | .unitNotFound _ => "UnitNotFound"
  | .notOwner _ _ => "NotOwner"
  | .alreadyAttacked _ => "AlreadyAttacked"
  | .cannotAttackFromLane _ => "CannotAttackFromLane"
  | .illegalAttackTarget _ _ => "IllegalAttackTarget"
  | .abilityNotFound _ _ => "AbilityNotFound"
  | .abilityPrevented _ _ => "AbilityPrevented"
  | .onCooldown _ _ _ => "OnCooldown"
  | .noUsesRemaining _ _ => "NoUsesRemaining"
  | .alreadyUsedThisTurn _ _ => "AlreadyUsedThisTurn"
  | .cannotPayCost _ _ => "CannotPayCost"
  | .missingAbilityTarget _ _ => "MissingAbilityTarget"
  | .illegalAbilityTarget _ => "IllegalAbilityTarget"
  | .corrupt _ => "IntegrityViolation"

/-- What a message calls the ability of a unit in a slot. -/
def abilityText (uid : Uid) (slot : UInt8) : String :=
  "ability " ++ toString slot ++ " of " ++ uid.text

/-- The text shown for a rejection. -/
def message : Rejection → String
  | .unknownPlayer player => "player " ++ toString player ++ " does not exist"
  | .handIndexOutOfRange index => "hand index " ++ toString index ++ " is out of range"
  | .unknownCard cardId => "card `" ++ cardId ++ "` is not in the database"
  | .notAUnitCard cardId => "card `" ++ cardId ++ "` is not a unit"
  | .boardFull => "board is full"
  | .cellUnavailable cell => "cell " ++ cell.text ++ " is not available"
  | .unitNotFound uid => "unit " ++ uid.text ++ " is not on the board"
  | .notOwner uid player =>
      "unit " ++ uid.text ++ " is not controlled by player " ++ toString player
  | .alreadyAttacked uid => "unit " ++ uid.text ++ " already attacked this turn"
  | .cannotAttackFromLane uid => "unit " ++ uid.text ++ " cannot attack from the back lane"
  | .illegalAttackTarget attacker target =>
      target.text ++ " is not a legal attack target for " ++ attacker.text
  | .abilityNotFound uid slot =>
      "unit " ++ uid.text ++ " has no active ability in slot " ++ toString slot
  | .abilityPrevented uid turn =>
      "unit " ++ uid.text ++ " cannot use active abilities until turn " ++ toString turn
  | .onCooldown uid slot remaining =>
      abilityText uid slot ++ " is on cooldown for " ++ toString remaining ++ " more turns"
  | .noUsesRemaining uid slot => abilityText uid slot ++ " has no uses left"
  | .alreadyUsedThisTurn uid slot => abilityText uid slot ++ " was already used this turn"
  | .cannotPayCost required available =>
      "cost requires discarding " ++ toString required ++ " cards, hand has "
        ++ toString available
  | .missingAbilityTarget uid slot => abilityText uid slot ++ " needs a target"
  | .illegalAbilityTarget target => target.text ++ " is not a legal ability target"
  | .corrupt corruption => "corrupt state: " ++ corruption.message

open Json (Fields Kinds Members Reading encode)

/-- The field of a unit. -/
def unitField (uid : Uid) : Fields := [("uid", encode uid)]

/-- The fields of an ability of a unit. -/
def abilityFields (uid : Uid) (slot : UInt8) : Fields :=
  [("uid", encode uid), ("slot", encode slot)]

/-- The fields of a rejection in JSON. -/
def toFields : Rejection → Fields
  | .unknownPlayer player => [("player", encode player)]
  | .handIndexOutOfRange index => [("index", encode index)]
  | .unknownCard cardId => [("card_id", encode cardId)]
  | .notAUnitCard cardId => [("card_id", encode cardId)]
  | .boardFull => []
  | .cellUnavailable cell => [("lane", encode cell.lane), ("column", encode cell.column)]
  | .unitNotFound uid => unitField uid
  | .notOwner uid player => [("uid", encode uid), ("player", encode player)]
  | .alreadyAttacked uid => unitField uid
  | .cannotAttackFromLane uid => unitField uid
  | .illegalAttackTarget attacker target =>
      [("attacker", encode attacker), ("target", encode target)]
  | .abilityNotFound uid slot => abilityFields uid slot
  | .abilityPrevented uid turn => [("uid", encode uid), ("until", encode turn)]
  | .onCooldown uid slot remaining =>
      abilityFields uid slot ++ [("remaining", encode remaining)]
  | .noUsesRemaining uid slot => abilityFields uid slot
  | .alreadyUsedThisTurn uid slot => abilityFields uid slot
  | .cannotPayCost required available =>
      [("required", encode required), ("available", encode available)]
  | .missingAbilityTarget uid slot => abilityFields uid slot
  | .illegalAbilityTarget target => [("target", encode target)]
  | .corrupt corruption => [("error", encode corruption)]

/-- A rejection about the ability of a unit in a slot. -/
def readAbility {α : Type} (fields : Members) (mk : Uid → UInt8 → α) : Reading α :=
  mk <$> fields.required "uid" <*> fields.required "slot"

/-- The kinds of rejections. -/
def kinds : Kinds where
  names := ["UnknownPlayer", "HandIndexOutOfRange", "UnknownCard", "NotAUnitCard", "BoardFull",
    "CellUnavailable", "UnitNotFound", "NotOwner", "AlreadyAttacked", "CannotAttackFromLane",
    "IllegalAttackTarget", "AbilityNotFound", "AbilityPrevented", "OnCooldown",
    "NoUsesRemaining", "AlreadyUsedThisTurn", "CannotPayCost", "MissingAbilityTarget",
    "IllegalAbilityTarget", "IntegrityViolation"]

/-- The rejection of a kind that the fields of an object give. -/
def ofFields (kind : String) (fields : Members) : Reading Rejection :=
  match kind with
  | "UnknownPlayer" => .unknownPlayer <$> fields.required "player"
  | "HandIndexOutOfRange" => .handIndexOutOfRange <$> fields.required "index"
  | "UnknownCard" => .unknownCard <$> fields.required "card_id"
  | "NotAUnitCard" => .notAUnitCard <$> fields.required "card_id"
  | "BoardFull" => .value .boardFull
  | "CellUnavailable" =>
      .cellUnavailable <$> (Cell.mk <$> fields.required "lane" <*> fields.required "column")
  | "UnitNotFound" => .unitNotFound <$> fields.required "uid"
  | "NotOwner" => .notOwner <$> fields.required "uid" <*> fields.required "player"
  | "AlreadyAttacked" => .alreadyAttacked <$> fields.required "uid"
  | "CannotAttackFromLane" => .cannotAttackFromLane <$> fields.required "uid"
  | "IllegalAttackTarget" =>
      .illegalAttackTarget <$> fields.required "attacker" <*> fields.required "target"
  | "AbilityNotFound" => readAbility fields .abilityNotFound
  | "AbilityPrevented" =>
      .abilityPrevented <$> fields.required "uid" <*> fields.required "until"
  | "OnCooldown" => readAbility fields .onCooldown <*> fields.required "remaining"
  | "NoUsesRemaining" => readAbility fields .noUsesRemaining
  | "AlreadyUsedThisTurn" => readAbility fields .alreadyUsedThisTurn
  | "CannotPayCost" =>
      .cannotPayCost <$> fields.required "required" <*> fields.required "available"
  | "MissingAbilityTarget" => readAbility fields .missingAbilityTarget
  | "IllegalAbilityTarget" => .illegalAbilityTarget <$> fields.required "target"
  | "IntegrityViolation" => .corrupt <$> fields.required "error"
  | _ => fields.missing

instance : Json.Codec Rejection where
  encode r := .tagged "type" r.kind r.toFields
  decode input := input.readTagged "type" kinds ofFields

end Rejection

end CardBattle
