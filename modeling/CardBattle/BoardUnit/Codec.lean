import CardBattle.BoardUnit.Basic
import CardBattle.Json.Maps

/-!
# Units in JSON

The cell of a unit is written as two fields of the unit.
-/

namespace CardBattle

open Json (Fields encode)

instance : Json.Codec BoardUnit where
  encode u := .object (
    [("uid", encode u.uid), ("cardId", encode u.cardId), ("owner", encode u.owner),
      ("lane", encode u.cell.lane), ("column", encode u.cell.column),
      ("vit", encode u.vitality), ("vitMax", encode u.vitalityMax),
      ("imp", encode u.impact), ("def", encode u.defence), ("vel", encode u.velocity),
      ("statuses", encode u.statuses), ("statusImmunities", encode u.immunities),
      ("cooldowns", encode u.cooldowns), ("usesRemaining", encode u.usesLeft),
      ("attackModifiers", encode u.modifiers), ("flags", encode u.flags),
      ("temporaryBuffs", encode u.buffs), ("attackedThisTurn", encode u.hasAttacked),
      ("summonedThisTurn", encode u.isNew)]
      ++ Fields.ofOption "backlineAttack" u.reach
      ++ [("untargetableByEnemyAbilities", encode u.isUntargetable)]
      ++ Fields.ofOption "preventActiveUntil" u.preventedUntil)
  decode input := input.readObject fun fields => BoardUnit.mk
    <$> fields.required "uid"
    <*> fields.required "cardId"
    <*> fields.required "owner"
    <*> (Cell.mk <$> fields.required "lane" <*> fields.required "column")
    <*> fields.required "vit"
    <*> fields.required "vitMax"
    <*> fields.required "imp"
    <*> fields.required "def"
    <*> fields.required "vel"
    <*> fields.defaulted "statuses" []
    <*> fields.defaulted "statusImmunities" []
    <*> fields.defaulted "cooldowns" ∅
    <*> fields.defaulted "usesRemaining" ∅
    <*> fields.defaulted "attackModifiers" []
    <*> fields.defaulted "flags" ∅
    <*> fields.defaulted "temporaryBuffs" []
    <*> fields.defaulted "attackedThisTurn" false
    <*> fields.defaulted "summonedThisTurn" false
    <*> fields.optional "backlineAttack"
    <*> fields.defaulted "untargetableByEnemyAbilities" false
    <*> fields.optional "preventActiveUntil"

end CardBattle
