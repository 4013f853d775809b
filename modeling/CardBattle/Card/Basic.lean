import CardBattle.Script.Condition
import CardBattle.Script.Step
import CardBattle.Stat
import CardBattle.Text.Case
import CardBattle.Trigger

/-!
# Cards

A card describes a unit or an event.  Its abilities are made of rule blocks, each of which
runs a script on one trigger.  The active abilities of a unit are told apart by their
slots; of two in one slot the first counts.
-/

namespace CardBattle

/-- What a card is. -/
inductive CardKind
  | unit
  | event
deriving DecidableEq

/-- When an ability is in force. -/
inductive AbilityKind
  | enter
  | active
  | passive
deriving DecidableEq

/-- The units that an active ability can be aimed at. -/
inductive TargetScope
  | self
  | ally
  | enemy
  | any
deriving DecidableEq

/-- A script that runs on a trigger, if its condition holds. -/
structure RuleBlock where
  trigger : Trigger
  condition : Option Condition := none
  script : List Step

/-- An ability of a card. -/
structure Ability where
  kind : AbilityKind
  slot : Option UInt8 := none
  name : String := ""
  text : String := ""
  /-- The number of turns that have to end before the ability can be used again. -/
  cooldown : Option UInt32 := none
  /-- How often the ability can be used in one battle. -/
  uses : Option UInt32 := none
  /-- The number of cards to be discarded for a use. -/
  cost : Option UInt32 := none
  target : Option TargetScope := none
  rules : List RuleBlock := []

namespace Ability

/-- What a text about allies says. -/
def allyWords : List String := ["alleat", "ally", "allies", "allied"]

/-- What a text about enemies says. -/
def enemyWords : List String := ["nemic", "enem"]

/-- The units that the ability can be aimed at: those it names, else those its text speaks
of. -/
def targetScope (a : Ability) : TargetScope :=
  match a.target with
  | some scope => scope
  | none =>
      let text := Text.lower a.text
      if enemyWords.any (Text.contains text) then .enemy
      else if allyWords.any (Text.contains text) then .ally
      else .any

/-- The rule blocks for a trigger, in order. -/
def blocksFor (a : Ability) (trigger : Trigger) : List RuleBlock :=
  a.rules.filter (fun block => block.trigger = trigger)

/-- Whether a script that an activation runs depends on a target. -/
def needsTarget (a : Ability) : Bool :=
  (a.blocksFor .activate).any (fun block => scriptMentions .target block.script)

/-- The number of cards to be discarded for a use. -/
def discardCost (a : Ability) : UInt32 := a.cost.getD 0

/-- The slot of the ability, if it is an active one. -/
def activeSlot? (a : Ability) : Option UInt8 :=
  match a.kind with
  | .active => a.slot
  | _ => none

end Ability

/-- A card. -/
structure Card where
  id : String
  name : String
  kind : CardKind := .unit
  faction : String := ""
  rarity : String := ""
  classes : List String := []
  stats : StatLine := {}
  abilities : List Ability := []
  image : Option String := none

namespace Card

/-- The text shown for a card. -/
def text (card : Card) : String :=
  card.name ++ " (" ++ card.id ++ ")"

/-- Whether the card is that of a unit. -/
def isUnit (card : Card) : Bool :=
  card.kind = .unit

/-- Whether the card has a class, regardless of case. -/
def hasClass (card : Card) (className : String) : Bool :=
  card.classes.any (Text.sameLetters className)

/-- Whether the card is of a faction, regardless of case. -/
def isOfFaction (card : Card) (faction : String) : Bool :=
  Text.sameLetters card.faction faction

/-- Whether the name of the card begins so, regardless of case. -/
def nameBegins (card : Card) (beginning : String) : Bool :=
  Text.startsWith (Text.lower card.name) (Text.lower beginning)

/-- The active abilities with their slots, in order. -/
def activeAbilities (card : Card) : List (UInt8 × Ability) :=
  card.abilities.filterMap (fun a => a.activeSlot?.map (fun slot => (slot, a)))

/-- The active ability in a slot. -/
def activeAbility? (card : Card) (slot : UInt8) : Option Ability :=
  card.abilities.find? (fun a => a.activeSlot? = some slot)

/-- The rule blocks of all abilities for a trigger, in order. -/
def blocksFor (card : Card) (trigger : Trigger) : List RuleBlock :=
  card.abilities.flatMap (fun a => a.blocksFor trigger)

end Card

end CardBattle
