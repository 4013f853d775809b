import CardBattle.Action.Permit
import CardBattle.Cascade.Refresh

/-!
# Carrying out actions

An action is checked and then carried out; what comes of it is the new battle, the lines
that were added to the log and the choices left to the players.  An action that is not
accepted, or one that stops with a fault, leaves the battle as it was.
-/

namespace CardBattle

/-- Why an action has no result. -/
inductive Stop
  | rejected (rejection : Rejection)
  | fault (fault : Fault)
deriving DecidableEq

/-- The text shown for an action that has no result. -/
def Stop.message : Stop → String
  | .rejected cause => cause.message
  | .fault cause => cause.message

instance : MonadLift (Except Rejection) (Except Stop) where
  monadLift
    | .ok a => .ok a
    | .error rejection => .error (.rejected rejection)

instance : MonadLift (Except Fault) (Except Stop) where
  monadLift
    | .ok a => .ok a
    | .error fault => .error (.fault fault)

/-- What came of an action. -/
structure Resolution where
  battle : Battle
  log : List String
  pending : List PendingChoice
deriving DecidableEq

/-- A way to carry out an action. -/
abbrev Deed := Battle → Except Stop (Battle × Report)

namespace Ruleset

variable (rules : Ruleset)

/-- The board of a player with a unit put into the free cell that it names. -/
def settle (b : Battle) (player : UInt8) (side : Side) (u : BoardUnit) :
    Except Rejection Battle :=
  match side.board.place? u with
  | some board => .ok (b.setSide player { side with board })
  | none => .error (.cellUnavailable u.cell)

/-- Broadcasts the event of an action, and refreshes the auras. -/
def emitAndRefresh (event : Event) (first second : Trigger) : Change :=
  (rules.emit event).andThen (rules.refresh event.player first second)

/-- A unit card of the hand is played. -/
def playUnit (player : UInt8) (handIndex : UInt64) (cell : Cell) (card : Card) : Deed :=
  fun b => do
    let (uid, uids) ← b.uids.issue
    let side ← b.sideOf player
    let side ← side.takeFromHand handIndex
    let b ← settle { b with uids } player side (.ofCard uid player cell card)
    let b := b.record (playerText player ++ " gioca " ++ card.name ++ " in " ++ cell.text)
    rules.emitAndRefresh { trigger := .onDeploy, player, source := some uid } .ruleMod .aura b

/-- A unit moves to another cell of its board. -/
def moveUnit (player : UInt8) (uid : Uid) (cell : Cell) : Deed := fun b => do
  let side ← b.sideOf player
  match side.board.take? uid with
  | none => .error (.rejected (.unitNotFound uid))
  | some (u, board) =>
      let b ← settle b player { side with board } { u with cell }
      let b := b.record (playerText player ++ " sposta " ++ uid.text ++ " da " ++ u.cell.text
        ++ " a " ++ cell.text)
      rules.emitAndRefresh
        { trigger := .onUnitMove, player, source := some uid, mover := some uid }
        .aura .ruleMod b

/-- The battle after a unit has hit another, and the damage done. -/
def strike (b : Battle) (attacker target : BoardUnit) : Except Fault (Battle × Int32) := do
  let place? := attacker.pendingModifier?
  let modifier := place?.bind (attacker.modifiers[·]?)
  let amount := damage attacker.impact target.defence modifier
  let b := b.replace (← target.takeDamage amount)
  let spent (u : BoardUnit) : BoardUnit :=
    let u := { u with hasAttacked := true }
    match place? with
    | some place => u.consumeModifier place
    | none => u
  match b.find? attacker.uid with
  | some u => return (b.replace (spent u), amount)
  | none => return (b, amount)

/-- The line about a hit. -/
def strikeLine (b : Battle) (player : UInt8) (attacker target : Uid) (amount : Int32) :
    String :=
  let (vitality, vitalityMax) := match b.find? target with
    | some u => (u.vitality, u.vitalityMax)
    | none => (0, 0)
  playerText player ++ " attacca: " ++ attacker.text ++ " → " ++ target.text ++ " per "
    ++ toString amount ++ " danni (vit=" ++ toString vitality ++ "/" ++ toString vitalityMax
    ++ ")"

/-- A unit attacks another.  The attack comes to nothing if its declaration has taken one of
the two off the board. -/
def attackUnit (player : UInt8) (attacker target : Uid) : Change := fun b => do
  let b := { b with firstAttacker := b.firstAttacker <|> some attacker }
  let declared : Event :=
    { trigger := .onAttackDeclare, player, source := some attacker, target := some target }
  let (b, report) ← rules.emit declared b
  match b.find? attacker, b.find? target with
  | some att, some tgt =>
      let (b, amount) ← strike b att tgt
      let b := b.record (strikeLine b player attacker target amount)
      let aftermath := (rules.emit { declared with trigger := .onAttackHit }).andThen
        (rules.sweep (some attacker) 1)
      let (b, after) ← aftermath b
      return (b, report ++ after)
  | _, _ =>
      let line := playerText player ++ " attacco annullato: " ++ attacker.text ++ " → "
        ++ target.text
      return (b.record line, report)

/-- The unit after the use of its active ability in a slot. -/
def afterUse (slot : UInt8) (ability : Ability) (u : BoardUnit) : BoardUnit :=
  { u with
    cooldowns := u.cooldowns.insert slot (ability.cooldown.getD 0)
    usesLeft := u.usesLeft.modify slot BoardUnit.coolDown }

/-- A unit uses an active ability, which its player pays for first. -/
def activate (player : UInt8) (uid : Uid) (slot : UInt8) (target : Option Uid)
    (ability : Ability) : Deed := fun b => do
  let side ← b.sideOf player
  let (paid, side) := side.discardUpTo ability.discardCost.toNat
  let b := b.setSide player side
  let label := ((b.find? uid).map rules.label).getD uid.text
  let b := b.record (playerText player ++ " attiva " ++ label ++ ": " ++ ability.name)
  let b := paid.foldl (fun b card =>
    b.record (playerText player ++ " scarta " ++ card ++ " come costo")) b
  let (b, report) ← rules.runActivation uid ability
    { trigger := .activate, player, source := some uid, target } b
  let side ← b.sideOf player
  let b := b.setSide player (side.markUsed ⟨uid, slot⟩)
  match b.find? uid with
  | some u => return (b.replace (afterUse slot ability u), report)
  | none => return (b, report)

/-- The end of a turn for the units: their counters are reset, and those whose buffs kept
them alive leave the boards. -/
def endCycle : Change := fun b => do
  let b := { b with side0.used := ∅, side1.used := ∅ }
  let b ← b.changeAll BoardUnit.endCycle
  rules.sweep none 1 b

/-- The battle at the beginning of the next turn. -/
def nextTurn (b : Battle) : Except Fault Battle := do
  let turn ← Word.next b.turn
  let activePlayer := opponentOf b.activePlayer
  let b := { b with turn, activePlayer, firstAttacker := none }
  return b.record ("--- Turno " ++ toString turn ++ " (" ++ playerText activePlayer ++ ") ---")

/-- The turn ends, and that of the opponent begins. -/
def endTurn : Change := fun b => do
  let (b, swept) ← rules.endCycle b
  let b ← nextTurn b
  let (b, report) ← rules.emitAndRefresh
    { trigger := .turnStartSelf, player := b.activePlayer } .ruleMod .aura b
  return (b, swept ++ report)

/-- Carries out an action that has been checked. -/
def carryOut : Permit → Deed
  | .playUnit player handIndex cell card => rules.playUnit player handIndex cell card
  | .move player uid cell => rules.moveUnit player uid cell
  | .attack player attacker target => fun b => rules.attackUnit player attacker target b
  | .activate player uid slot target ability => rules.activate player uid slot target ability
  | .endTurn => fun b => rules.endTurn b

/-- Checks an action and carries it out. -/
def resolve (b : Battle) (action : Action) : Except Stop Resolution := do
  let permit ← rules.permit b action
  let (battle, report) ← rules.carryOut permit b
  return { battle, log := battle.log.drop b.log.length, pending := report.pending }

/-- The battle after an action; one that is not accepted leaves it as it was. -/
def act (b : Battle) (action : Action) : Except Fault Battle :=
  match rules.resolve b action with
  | .ok resolution => .ok resolution.battle
  | .error (.rejected _) => .ok b
  | .error (.fault fault) => .error fault

end Ruleset

end CardBattle
