import CardBattle.Proofs.BoardUnit.Auras
import CardBattle.Proofs.Cascade.Descent
import CardBattle.Proofs.Cascade.Refresh

/-!
# The base of a statistic

The base of a statistic is its value without what the buffs of the unit have made of it.  A
unit comes to a board with the value on its card as the base, and buffs leave the base as it
is, both when they are given and when they are taken back.  Hence nothing changes the base of
impact, defence or velocity but a change of it for good (`SameBase.isBond`).
-/

namespace CardBattle

/-- The value of a statistic on the card. -/
def Card.stat (card : Card) : Stat → Int32
  | .vitality => card.stats.vitality
  | .impact => card.stats.impact
  | .defence => card.stats.defence
  | .velocity => card.stats.velocity

/-- Buffs that end with a duration and those that do not are all buffs. -/
theorem Buff.total_expiring (stat : Stat) (u : BoardUnit) (expiry : Duration) :
  total stat u.buffs = total stat (u.expiring expiry)
    + total stat (u.buffs.filter fun buff => buff.expiry ≠ expiry)
  := by
  rw [← total_append]
  apply total_perm
  have hperm := (List.filter_append_perm (fun buff : Buff => decide (buff.expiry = expiry)) u.buffs)
  simp only [← decide_not] at hperm
  exact hperm.symm

namespace BoardUnit

/-- The value of a statistic without what the buffs of the unit have made of it. -/
def base (u : BoardUnit) (stat : Stat) : Int :=
  (u.stat stat).toInt - Buff.total stat u.buffs

/-- The unit keeps its card and the base of a statistic. -/
structure SameBase (stat : Stat) (u v : BoardUnit) : Prop where
  cardId : v.cardId = u.cardId
  base : v.base stat = u.base stat

variable {u v w : BoardUnit} {stat : Stat}

/-- The unit of a card has its values as bases. -/
theorem base_ofCard (uid : Uid) (owner : UInt8) (cell : Cell) (card : Card) (stat : Stat) :
  (ofCard uid owner cell card).base stat = (card.stat stat).toInt
  := by
  cases stat <;> exact Int.sub_zero _

namespace SameBase

theorem refl (u : BoardUnit) :
  SameBase stat u u
  := ⟨rfl, rfl⟩

theorem trans (huv : SameBase stat u v) (hvw : SameBase stat v w) :
  SameBase stat u w
  := ⟨hvw.cardId.trans huv.cardId, hvw.base.trans huv.base⟩

/-- Where neither the statistic nor the buffs differ, its base is the same. -/
theorem of_eq (hcard : v.cardId = u.cardId) (hstat : v.stat stat = u.stat stat)
    (hbuffs : v.buffs = u.buffs) :
  SameBase stat u v
  := by
  use hcard
  rw [BoardUnit.base, BoardUnit.base, hstat, hbuffs]

/-- Vitality has no part in the bases of the other statistics. -/
theorem of_vitality (hstat : stat ≠ .vitality)
    (h : v = { u with vitality := v.vitality, vitalityMax := v.vitalityMax }) :
  SameBase stat u v
  := by
  have hsame : v.stat stat = u.stat stat := by
    rw [h]
    cases stat with
    | vitality => exact absurd rfl hstat
    | _ => rfl
  exact of_eq (by rw [h]) hsame (by rw [h])

theorem elsewhere (u : BoardUnit) (cell : Cell) :
  SameBase stat u { u with cell }
  := of_eq rfl (by cases stat <;> rfl) rfl

theorem of_marks (h : u.Marks v) :
  SameBase stat u v
  := by
  rw [h.eq]
  exact of_eq rfl (by cases stat <;> rfl) rfl

theorem of_exerts (h : u.Exerts v) :
  SameBase stat u v
  := by
  rw [h]
  exact of_eq rfl (by cases stat <;> rfl) rfl

end SameBase

variable (hstat : stat ≠ .vitality)

include hstat

theorem takeDamage_sameBase {amount : Int32} (h : u.takeDamage amount = .ok v) :
  SameBase stat u v
  := by
  apply SameBase.of_vitality hstat
  rw [(takeDamage_ok h).1]

theorem heal_sameBase {amount gain : Int32} (h : u.heal amount = .ok (v, gain)) :
  SameBase stat u v
  := by
  apply SameBase.of_vitality hstat
  rw [(heal_ok h).1]

theorem keepLack_sameBase (l : Lacks) (u : BoardUnit) :
  SameBase stat u (u.keepLack l)
  := by
  apply SameBase.of_vitality hstat
  rw [keepLack_eq]

/-- The value of a statistic after a change of it or of another one. -/
theorem modifyStat_stat {changed : Stat} {delta : Int32}
    (h : u.modifyStat delta changed = .ok v) :
  (v.stat stat).toInt = (u.stat stat).toInt + if changed = stat then delta.toInt else 0
  := by
  by_cases hchanged : changed = .vitality
  · subst hchanged
    rw [modifyStat_vitality_stat hstat h, if_neg (Ne.symm hstat), Int.add_zero]
  · apply modifyStat_other_stat hchanged h

/-- A buff is noted with what it has changed, so that it leaves the base alone. -/
theorem addBuff_sameBase {changed : Stat} {delta : Int32} {duration : Duration}
    (hduration : changed = stat → duration ≠ .permanent)
    (h : u.addBuff changed delta duration = .ok v) :
  SameBase stat u v
  := by
  use (addBuff_restats h).persists.cardId
  obtain ⟨w, hw, rfl⟩ := addBuff_ok h
  have hvalue := modifyStat_stat hstat hw
  rw [base, base, stat_withBuffs, hvalue]
  dsimp only
  rw [modifyStat_buffs hw]
  by_cases hpermanent : duration = .permanent
  · rw [if_neg fun hchanged => hduration hchanged hpermanent, if_pos hpermanent, Int.add_zero]
  · rw [if_neg hpermanent, Buff.total_append, Buff.total_cons, Buff.total_nil, Buff.change]
    dsimp only
    omega

/-- Buffs that end take back what they have changed, and leave the base alone. -/
theorem expireBuffs_sameBase {expiry : Duration} (h : u.expireBuffs expiry = .ok v) :
  SameBase stat u v
  := by
  use (expireBuffs_restats h).persists.cardId
  have hbuffs := Buff.total_expiring stat u expiry
  rw [base, base, expireBuffs_other hstat h, expireBuffs_buffs h]
  omega

theorem endCycle_sameBase (h : u.endCycle = .ok v) :
  SameBase stat u v
  := by
  obtain ⟨w, hw, h⟩ := bind_eq_ok.mp h
  obtain rfl := pure_eq_ok.mp h
  have hexpired := expireBuffs_sameBase hstat hw
  have hrested : SameBase stat u
      { u with
        hasAttacked := false
        isNew := false
        cooldowns := u.cooldowns.mapValues coolDown } :=
    .of_eq rfl (by cases stat <;> rfl) rfl
  apply hrested.trans
  apply hexpired.trans
  exact .of_eq rfl (by cases stat <;> rfl) rfl

/-- An alteration that changes no statistic leaves the base alone. -/
theorem Alters.sameBase (h : u.Alters (fun _ => False) v) :
  SameBase stat u v
  := by
  cases h with
  | damage h => apply takeDamage_sameBase hstat h
  | heal h => apply heal_sameBase hstat h
  | modify hstat => exact hstat.elim
  | mark h => apply SameBase.of_marks h

/-- Nothing that happens to a unit in a cascade changes the base of the statistic, if no step
changes it for good. -/
theorem SameBase.isBond :
  IsBond (fun changed duration => changed = stat → duration ≠ .permanent) (SameBase stat)
  := by
  constructor
  case refl => exact SameBase.refl
  case trans => exact fun _ _ _ => SameBase.trans
  case elsewhere => exact SameBase.elsewhere
  case alters => exact fun _ _ => Alters.sameBase hstat
  case buff => exact fun _ _ _ _ _ => addBuff_sameBase hstat

end BoardUnit

end CardBattle
