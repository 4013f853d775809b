import CardBattle.Cell
import CardBattle.Script.Filter

/-!
# Conditions of rule blocks

A rule block runs only if its condition holds for the unit that is to run it and for the
event that calls for it.
-/

namespace CardBattle

/-- The condition of a rule block. -/
inductive Condition
  | selfZone (lane : Lane)
  /-- Another unit of the side has a card whose name begins so, regardless of case. -/
  | allyNameInPlay (beginning : String)
  | adjacentAlly (faction : Option String)
  | moverIsEnemy
  | targetName (beginning : String)
  | targetIsEnemy
  | targetFaction (faction : String)
  | targetHasClass (className : String)
  | targetSlowerThanSelf
  /-- The unit was the first to attack in this turn. -/
  | selfFirstAttacker
  /-- The unit is the source of the event. -/
  | selfIsSource
  | selfFlag (flag : String)
  | countAtLeast (filter : UnitFilter) (minimum : UInt64)
  | all (conditions : List Condition)
  /-- A condition that is not known, which does not hold. -/
  | unknown

end CardBattle
