import CardBattle.Judgement

/-!
# Targets

The units that a unit can attack, and those that an active ability can be aimed at.
-/

namespace CardBattle

/-- The units of a board that an attack can reach.  Without a reach of its own a unit
attacks as one of standard reach. -/
def Board.reachable (board : Board) (reach : Option Reach) : List BoardUnit :=
  match reach with
  | some .frontLane => board.laneUnits .front
  | some .allLanes => board.units
  | _ =>
      let front := board.laneUnits .front
      if front.isEmpty then board.laneUnits .back else front

/-- The uids of the units that the unit of the given uid can attack, in scan order. -/
def Battle.attackTargets (b : Battle) (attacker : Uid) : List Uid :=
  match b.find? attacker with
  | none => []
  | some u =>
      match b.side? (opponentOf u.owner) with
      | none => []
      | some side => (side.board.reachable u.reach).map BoardUnit.uid

namespace TargetScope

/-- Whether a scope seen from a unit holds another.  Units that are untargetable are out of
reach for the abilities of their enemies. -/
def admits (scope : TargetScope) (u candidate : BoardUnit) : Bool :=
  let isAlly := candidate.owner = u.owner
  let inScope := match scope with
    | .ally => isAlly
    | .enemy => !isAlly
    | _ => true
  inScope && (isAlly || !candidate.isUntargetable)

end TargetScope

/-- The uids of the units that the active ability of a unit in a slot can be aimed at, in
scan order. -/
def Ruleset.abilityTargets (rules : Ruleset) (b : Battle) (uid : Uid) (slot : UInt8) :
    List Uid :=
  match b.find? uid with
  | none => []
  | some u =>
      match (rules.cardOf? u).bind (·.activeAbility? slot) with
      | none => []
      | some ability =>
          match ability.targetScope with
          | .self => [u.uid]
          | scope => (b.units.filter (scope.admits u)).map BoardUnit.uid

end CardBattle
