import CardBattle.Double.Parts
import CardBattle.Json.Codec
import CardBattle.Word

/-!
# Damage

The damage of an attack is the impact of the attacker less the defence of its target, and
at least one.  An attack modifier, which one attack uses up, changes both before that.
-/

namespace CardBattle

/-- What strengthens an attack. -/
structure Boost where
  impactFactor : Float := 1.0
  impactBonus : Int32 := 0
  ignoresDefence : Bool := false
  ignoredDefence : Int32 := 0
  /-- The boost is lost at the end of the turn. -/
  thisTurnOnly : Bool := false
deriving DecidableEq

namespace Boost

/-- The fields of a boost in JSON. -/
def toFields (b : Boost) : Json.Fields := [
  ("impMultiplier", Json.encode b.impactFactor),
  ("impBonus", Json.encode b.impactBonus),
  ("ignoreDef", Json.encode b.ignoresDefence),
  ("ignoreDefAmount", Json.encode b.ignoredDefence),
  ("thisAttackOnly", Json.encode b.thisTurnOnly)]

/-- The boost that the fields of an object give. -/
def ofFields (fields : Json.Members) : Json.Reading Boost :=
  Boost.mk
    <$> fields.defaulted "impMultiplier" 1.0
    <*> fields.defaulted "impBonus" 0
    <*> fields.defaulted "ignoreDef" false
    <*> fields.defaulted "ignoreDefAmount" 0
    <*> fields.defaulted "thisAttackOnly" false

end Boost

/-- A boost for the next attack of a unit; the attack consumes it. -/
structure AttackModifier extends Boost where
  consumed : Bool := false
deriving DecidableEq

namespace AttackModifier

/-- The impact of an attack: the floor of the product, and the bonus on top of it. -/
def effectiveImpact (m : AttackModifier) (impact : Int32) : Int32 :=
  let scaled := Double.floorWord (Float.ofInt impact.toInt * m.impactFactor)
  Word.nearest (scaled.toInt + m.impactBonus.toInt)

/-- The defence against an attack: what is not ignored, and never less than zero. -/
def effectiveDefence (m : AttackModifier) (defence : Int32) : Int32 :=
  let kept := if m.ignoresDefence then 0 else defence.toInt
  Word.nearest (max 0 (kept - m.ignoredDefence.toInt))

instance : Json.Codec AttackModifier where
  encode m := .object (m.toFields ++ [("consumed", Json.encode m.consumed)])
  decode input := input.readObject fun fields =>
    AttackModifier.mk <$> Boost.ofFields fields <*> fields.defaulted "consumed" false

end AttackModifier

/-- The damage of an attack. -/
def damage (impact defence : Int32) (modifier : Option AttackModifier) : Int32 :=
  let (impact, defence) := match modifier with
    | some m => (m.effectiveImpact impact, m.effectiveDefence defence)
    | none => (impact, defence)
  Word.nearest (max 1 (impact.toInt - defence.toInt))

end CardBattle
