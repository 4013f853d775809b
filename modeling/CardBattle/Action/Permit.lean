import CardBattle.Action.Basic
import CardBattle.Action.Rejection
import CardBattle.Targets

/-!
# Permits

An action is accepted if a permit can be issued for it.  A permit records the action
together with what checking it has found: the card to be played, the ability to be
activated.
-/

namespace CardBattle

/-- An action that has been checked, with what the check has found. -/
inductive Permit
  | playUnit (player : UInt8) (handIndex : UInt64) (cell : Cell) (card : Card)
  | move (player : UInt8) (unit : Uid) (cell : Cell)
  | attack (player : UInt8) (attacker target : Uid)
  | activate (player : UInt8) (unit : Uid) (slot : UInt8) (target : Option Uid)
      (ability : Ability)
  | endTurn

namespace Battle

variable (b : Battle)

/-- The side of a player, who has to exist. -/
def sideOf (player : UInt8) : Except Rejection Side :=
  match b.side? player with
  | some side => .ok side
  | none => .error (.unknownPlayer player)

/-- The unit of a uid, which has to be on a board and to belong to the player. -/
def ownedUnit (player : UInt8) (uid : Uid) : Except Rejection BoardUnit :=
  match b.find? uid with
  | some u => if u.owner = player then .ok u else .error (.notOwner uid player)
  | none => .error (.unitNotFound uid)

end Battle

/-- Fails with a rejection unless a condition is met. -/
def Rejection.unless (met : Prop) [Decidable met] (r : Rejection) : Except Rejection Unit :=
  if met then .ok () else .error r

namespace Ruleset

variable (rules : Ruleset) (b : Battle)

/-- The card at a place of a hand, which has to be that of a unit. -/
def unitCardInHand (side : Side) (handIndex : UInt64) : Except Rejection Card :=
  match side.hand[handIndex.toNat]? with
  | none => .error (.handIndexOutOfRange handIndex)
  | some id =>
      match rules.catalog.find? id with
      | none => .error (.unknownCard id)
      | some card => if card.isUnit then .ok card else .error (.notAUnitCard card.id)

/-- Checks that a unit can be played: the card, the room on the board, the cell. -/
def checkPlay (player : UInt8) (handIndex : UInt64) (cell : Cell) : Except Rejection Card := do
  let side ← b.sideOf player
  let card ← rules.unitCardInHand side handIndex
  Rejection.unless (side.board.units.length < rules.settings.maxUnits.toNat) .boardFull
  Rejection.unless (side.board.isFree cell) (.cellUnavailable cell)
  return card

/-- Checks that a unit can move to a cell. -/
def checkMove (player : UInt8) (uid : Uid) (cell : Cell) : Except Rejection Unit := do
  let _ ← b.ownedUnit player uid
  let side ← b.sideOf player
  Rejection.unless (side.board.isFree cell) (.cellUnavailable cell)

/-- Checks that a unit can attack another. -/
def checkAttack (player : UInt8) (attacker target : Uid) : Except Rejection Unit := do
  let u ← b.ownedUnit player attacker
  Rejection.unless (¬u.hasAttacked) (.alreadyAttacked attacker)
  Rejection.unless (u.canAttackFromLane) (.cannotAttackFromLane attacker)
  Rejection.unless (target ∈ b.attackTargets attacker) (.illegalAttackTarget attacker target)

/-- Checks that the active ability of a unit in a slot is ready. -/
def checkReady (u : BoardUnit) (slot : UInt8) : Except Rejection Unit := do
  Rejection.unless (¬u.isPrevented b.turn)
    (.abilityPrevented u.uid (u.preventedUntil.getD b.turn))
  let remaining := (u.cooldowns.find? slot).getD 0
  Rejection.unless (remaining = 0) (.onCooldown u.uid slot remaining)
  Rejection.unless (u.usesLeft.find? slot ≠ some 0) (.noUsesRemaining u.uid slot)

/-- Checks that a player can pay for the use of an ability that was not used before in this
turn. -/
def checkCost (side : Side) (usage : Usage) (ability : Ability) : Except Rejection Unit := do
  Rejection.unless (¬side.hasUsed usage) (.alreadyUsedThisTurn usage.uid usage.slot)
  Rejection.unless (ability.discardCost.toNat ≤ side.hand.length)
    (.cannotPayCost ability.discardCost (UInt64.ofNat side.hand.length))

/-- Checks that the active ability of a unit in a slot can be aimed so; without a target only
an ability that needs none can. -/
def checkTarget (uid : Uid) (slot : UInt8) (target : Option Uid) (ability : Ability) :
    Except Rejection Unit :=
  match target with
  | some target =>
      Rejection.unless (target ∈ rules.abilityTargets b uid slot)
        (.illegalAbilityTarget target)
  | none => Rejection.unless (¬ability.needsTarget) (.missingAbilityTarget uid slot)

/-- Checks that the active ability of a unit in a slot can be used. -/
def checkActivation (player : UInt8) (uid : Uid) (slot : UInt8) (target : Option Uid) :
    Except Rejection Ability := do
  let u ← b.ownedUnit player uid
  match (rules.cardOf? u).bind (·.activeAbility? slot) with
  | none => .error (.abilityNotFound uid slot)
  | some ability =>
      checkReady b u slot
      let side ← b.sideOf player
      checkCost side ⟨uid, slot⟩ ability
      rules.checkTarget b uid slot target ability
      return ability

/-- Checks that a battle is not corrupt. -/
def checkIntegrity : Except Rejection Unit :=
  match b.corruption? with
  | none => .ok ()
  | some corruption => .error (.corrupt corruption)

/-- The permit for an action in a battle. -/
def permit (action : Action) : Except Rejection Permit := do
  checkIntegrity b
  match action with
  | .playUnit player handIndex cell =>
      return .playUnit player handIndex cell (← rules.checkPlay b player handIndex cell)
  | .move player uid cell =>
      checkMove b player uid cell
      return .move player uid cell
  | .attack player attacker target =>
      checkAttack b player attacker target
      return .attack player attacker target
  | .activate player uid slot target =>
      let ability ← rules.checkActivation b player uid slot target
      return .activate player uid slot target ability
  | .endTurn _ => return .endTurn

/-- Whether an action is accepted, and why not. -/
def validate (action : Action) : Except Rejection Unit :=
  (rules.permit b action).map fun _ => ()

end Ruleset

end CardBattle
