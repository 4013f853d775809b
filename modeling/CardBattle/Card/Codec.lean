import CardBattle.Card.Basic
import CardBattle.Script.Codec

/-!
# Cards in JSON

The base statistics of a card may be given as `stats` or as `baseStats`, the script of a
rule block as `script` or as `effects`, and the rules of an ability as one block or as a
list of blocks.  A block is an object or the list of its parts; so a list of rules is tried
as one block before it is read as a list of blocks.
-/

namespace CardBattle

open Json (Fields Input ItemReader ReadFault decode encode nextItem nextItemOr orNull)

namespace CardKind

/-- The name of a kind of cards. -/
def name : CardKind → String
  | .unit => "unit"
  | .event => "event"

/-- The kind of cards of a name. -/
def ofName? : String → Option CardKind
  | "unit" => some .unit
  | "event" => some .event
  | _ => none

instance : Json.Codec CardKind := .ofNames name ofName?

end CardKind

namespace AbilityKind

/-- The name of a kind of abilities. -/
def name : AbilityKind → String
  | .enter => "enter"
  | .active => "active"
  | .passive => "passive"

/-- The kind of abilities of a name. -/
def ofName? : String → Option AbilityKind
  | "enter" => some .enter
  | "active" => some .active
  | "passive" => some .passive
  | _ => none

instance : Json.Codec AbilityKind := .ofNames name ofName?

end AbilityKind

namespace TargetScope

/-- The name of a target scope. -/
def name : TargetScope → String
  | .self => "self"
  | .ally => "ally"
  | .enemy => "enemy"
  | .any => "any"

/-- The target scope of a name. -/
def ofName? : String → Option TargetScope
  | "self" => some .self
  | "ally" => some .ally
  | "enemy" => some .enemy
  | "any" => some .any
  | _ => none

instance : Json.Codec TargetScope := .ofNames name ofName?

end TargetScope

namespace RuleBlock

/-- The parts of a block in order; the last two may be absent. -/
def parts : ItemReader RuleBlock := do
  return {
    trigger := ← nextItem
    condition := ← nextItemOr (orNull decode) (.ok none)
    script := ← nextItemOr decode (.ok []) }

instance : Json.Codec RuleBlock where
  encode b := .object (
    ("trigger", encode b.trigger)
      :: Fields.ofOption "condition" b.condition
      ++ [("script", encode b.script)])
  decode input :=
    match input.items with
    | .ok _ => input.readItems parts
    | .error _ => input.readObject fun fields => RuleBlock.mk
        <$> fields.required "trigger"
        <*> fields.optional "condition"
        <*> fields.readAs ["script", "effects"] decode (.value [])

end RuleBlock

namespace Ability

/-- One rule block, a list of them, or none at all; the value is taken in whole, so that it
can be tried as the one and as the other. -/
def readRules (input : Input) : Except ReadFault (List RuleBlock) := do
  let rules : Input := .given { kindsByNumber := true } (← input.whole)
  if rules.isNull then return []
  else
    match (decode rules : Except ReadFault RuleBlock) with
    | .ok block => return [block]
    | .error _ => decode rules

/-- The number of uses in one battle, given as an object. -/
def readUses (input : Input) : Except ReadFault UInt32 :=
  input.readObject fun fields => fields.required "perGame"

/-- The number of cards that a use costs, given as an object. -/
def readCost (input : Input) : Except ReadFault UInt32 :=
  input.readObject fun fields => fields.defaulted "discard" 0

instance : Json.Codec Ability where
  encode a := .object (
    [("type", encode a.kind)]
      ++ Fields.ofOption "slot" a.slot
      ++ [("name", encode a.name), ("text", encode a.text)]
      ++ Fields.ofOption "cooldown" a.cooldown
      ++ Fields.ofOption "uses" (a.uses.map fun n => Json.object [("perGame", encode n)])
      ++ Fields.ofOption "cost" (a.cost.map fun n => Json.object [("discard", encode n)])
      ++ Fields.ofOption "target" a.target
      ++ [("rules", encode a.rules)])
  decode input := input.readObject fun fields => Ability.mk
    <$> fields.required "type"
    <*> fields.optional "slot"
    <*> fields.defaulted "name" ""
    <*> fields.defaulted "text" ""
    <*> fields.optionalAs ["cooldown", "cd"]
    <*> fields.readAs ["uses"] (orNull readUses) (.value none)
    <*> fields.readAs ["cost"] (orNull readCost) (.value none)
    <*> fields.optional "target"
    <*> fields.readAs ["rules"] readRules (.value [])

end Ability

instance : Json.Codec Card where
  encode card := .object (
    [("id", encode card.id), ("name", encode card.name), ("type", encode card.kind),
      ("faction", encode card.faction), ("rarity", encode card.rarity),
      ("classes", encode card.classes), ("stats", encode card.stats),
      ("abilities", encode card.abilities)]
      ++ Fields.ofOption "image" card.image)
  decode input := input.readObject fun fields => Card.mk
    <$> fields.required "id"
    <*> fields.required "name"
    <*> fields.defaulted "type" .unit
    <*> fields.defaulted "faction" ""
    <*> fields.defaulted "rarity" ""
    <*> fields.defaulted "classes" []
    <*> fields.readAs ["stats", "baseStats"] decode (.value {})
    <*> fields.defaulted "abilities" []
    <*> fields.optional "image"

end CardBattle
