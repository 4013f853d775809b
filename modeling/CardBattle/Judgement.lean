import CardBattle.Event
import CardBattle.Settings

/-!
# Judging a battle

What a battle is played by are its catalog and its settings.  This module says which units a
filter admits, which unit a script names, and when the conditions of rule blocks and the
tests of branches hold.  None of it changes the battle.
-/

namespace CardBattle

/-- What a battle is played by. -/
structure Ruleset where
  catalog : Catalog
  settings : Settings := {}

namespace Ruleset

/-- The card of a unit. -/
def cardOf? (rules : Ruleset) (u : BoardUnit) : Option Card :=
  rules.catalog.find? u.cardId

/-- What the log calls a unit: the name of its card and its uid. -/
def label (rules : Ruleset) (u : BoardUnit) : String :=
  match rules.cardOf? u with
  | some card => card.name ++ " (" ++ u.uid.text ++ ")"
  | none => u.uid.text

/-- Whether the card of a unit is known and passes a test. -/
def cardPasses (rules : Ruleset) (u : BoardUnit) (p : Card → Bool) : Bool :=
  (rules.cardOf? u).any p

end Ruleset

/-! ### Filters -/

/-- Whether a unit is on the side that another calls so. -/
def Allegiance.admits (a : Allegiance) (anchor candidate : BoardUnit) : Bool :=
  match a with
  | .ally => candidate.owner = anchor.owner
  | .enemy => candidate.owner ≠ anchor.owner
  | .any => true

namespace UnitFilter

/-- Whether the card of a unit is of the faction and the class wanted, if any are. -/
def admitsCard (f : UnitFilter) (rules : Ruleset) (candidate : BoardUnit) : Bool :=
  (f.faction.isNone && f.unitClass.isNone)
    || rules.cardPasses candidate fun card =>
      f.faction.all card.isOfFaction && f.unitClass.all card.hasClass

/-- Whether the filter of the unit `anchor` admits a unit. -/
def admits (f : UnitFilter) (rules : Ruleset) (anchor candidate : BoardUnit) : Bool :=
  (f.includesSelf || candidate.uid ≠ anchor.uid)
    && f.allegiance.admits anchor candidate
    && f.admitsCard rules candidate

/-- The units that the filter of a unit admits, in scan order. -/
def select (f : UnitFilter) (rules : Ruleset) (b : Battle) (anchor : BoardUnit) :
    List BoardUnit :=
  b.units.filter (f.admits rules anchor)

/-- Whether the filter of a unit admits at least so many units. -/
def admitsAtLeast (f : UnitFilter) (rules : Ruleset) (b : Battle) (anchor : BoardUnit)
    (minimum : UInt64) : Bool :=
  minimum.toNat ≤ (f.select rules b anchor).length

end UnitFilter

/-! ### References -/

/-- The uid that a reference stands for in a script run by `actor` on an event. -/
def UnitRef.uid? (ref : UnitRef) (actor : BoardUnit) (event : Event) : Option Uid :=
  match ref with
  | .self => some actor.uid
  | .target => event.target
  | .mover => event.mover
  | .source => event.source
  | .uid number => some ⟨number⟩

/-- The unit on a board that a reference names. -/
def UnitRef.resolve? (ref : UnitRef) (b : Battle) (actor : BoardUnit) (event : Event) :
    Option BoardUnit :=
  (ref.uid? actor event).bind b.find?

/-! ### Tests of branches -/

mutual

/-- Whether a test of a script run by `actor` on an event holds. -/
def BranchTest.holds (rules : Ruleset) (b : Battle) (actor : BoardUnit) (event : Event) :
    BranchTest → Bool
  | .adjacentToSelf ref =>
      let self := (b.find? actor.uid).getD actor
      (ref.resolve? b actor event).any self.isAdjacentTo
  | .targetHasNegativeStatus => (event.targetUnit? b).any BoardUnit.hasNegativeStatus
  | .countAtLeast filter minimum => filter.admitsAtLeast rules b actor minimum
  | .all tests => testsHold rules b actor event tests
  | .unknown => false

/-- Whether all tests of a list hold. -/
def testsHold (rules : Ruleset) (b : Battle) (actor : BoardUnit) (event : Event) :
    List BranchTest → Bool
  | [] => true
  | test :: rest => test.holds rules b actor event && testsHold rules b actor event rest

end

/-! ### Conditions of rule blocks -/

mutual

/-- Whether a condition holds for the unit `self` that an event concerns. -/
def Condition.holds (rules : Ruleset) (b : Battle) (self : BoardUnit) (event : Event) :
    Condition → Bool
  | .selfZone lane => self.cell.lane = lane
  | .allyNameInPlay beginning =>
      b.units.any fun u => u.owner = self.owner && u.uid ≠ self.uid
        && rules.cardPasses u fun card => card.nameBegins beginning
  | .adjacentAlly faction =>
      b.units.any fun u => self.isAdjacentTo u
        && faction.all fun name => rules.cardPasses u fun card => card.isOfFaction name
  | .moverIsEnemy =>
      (event.mover.bind (event.unit? b)).any fun u => u.owner ≠ self.owner
  | .targetName beginning =>
      (event.targetUnit? b).any fun u =>
        rules.cardPasses u fun card => card.nameBegins beginning
  | .targetIsEnemy => (event.targetUnit? b).any fun u => u.owner ≠ self.owner
  | .targetFaction name =>
      (event.targetUnit? b).any fun u => rules.cardPasses u fun card => card.isOfFaction name
  | .targetHasClass className =>
      (event.targetUnit? b).any fun u => rules.cardPasses u fun card => card.hasClass className
  | .targetSlowerThanSelf => (event.targetUnit? b).any fun u => u.velocity < self.velocity
  | .selfFirstAttacker => b.firstAttacker = some self.uid
  | .selfIsSource => event.source = some self.uid
  | .selfFlag flag => self.flag flag
  | .countAtLeast filter minimum => filter.admitsAtLeast rules b self minimum
  | .all conditions => conditionsHold rules b self event conditions
  | .unknown => false

/-- Whether all conditions of a list hold. -/
def conditionsHold (rules : Ruleset) (b : Battle) (self : BoardUnit) (event : Event) :
    List Condition → Bool
  | [] => true
  | condition :: rest =>
      condition.holds rules b self event && conditionsHold rules b self event rest

end

/-- Whether a rule block runs for the unit `self` that an event concerns; a block without a
condition always does. -/
def RuleBlock.applies (block : RuleBlock) (rules : Ruleset) (b : Battle) (self : BoardUnit)
    (event : Event) : Bool :=
  block.condition.all fun condition => condition.holds rules b self event

end CardBattle
