import CardBattle.BoardUnit.Basic
import CardBattle.Proofs.Change.Composition

/-!
# Statistics of units

Damage, healing, buffs and their end change nothing but the statistics and the buffs of a
unit (`BoardUnit.Restats`).  A unit that is alive never comes out of them with more vitality
than its maximum (`BoardUnit.Bounded`), even where the maximum has been below zero before.
-/

namespace CardBattle

/-! ### Words -/

namespace Word

theorem add_eq_ok_iff {a b w : Int32} :
  add a b = .ok w ↔ w.toInt = a.toInt + b.toInt
  := exact_eq_ok_iff

theorem subtract_eq_ok_iff {a b w : Int32} :
  subtract a b = .ok w ↔ w.toInt = a.toInt - b.toInt
  := exact_eq_ok_iff

/-- A word that has one after it is one less than that. -/
theorem toNat_of_next {n m : UInt32} (h : next n = .ok m) :
  m.toNat = n.toNat + 1
  := by
  rw [next] at h
  split at h
  · next hroom =>
    obtain rfl := Except.ok.inj h
    rw [UInt32.toNat_add]
    exact Nat.mod_eq_of_lt hroom
  · cases h

/-- A word in its range is the word nearest its value. -/
theorem toInt_nearest_of_le {n : Int} (hlow : -0x80000000 ≤ n) (hhigh : n < 0x80000000) :
  (nearest n).toInt = n
  := by
  rw [toInt_nearest]
  omega

/-- What comes of bringing a word into a range that is not empty. -/
theorem toInt_of_clamp {low high w v : Int32} (hrange : low.toInt ≤ high.toInt)
    (h : clamp low high w = .ok v) :
  v.toInt = max low.toInt (min w.toInt high.toInt)
  := by
  obtain ⟨v', hv', htoInt⟩ := clamp_of_le hrange w
  rw [hv'] at h
  obtain rfl := Except.ok.inj h
  exact htoInt

end Word

/-- A property that every step of a fold keeps is kept by the fold. -/
theorem foldlM_keeps {ε α β : Type} {P : β → Prop} {f : β → α → Except ε β} {l : List α}
    (h : ∀ a ∈ l, ∀ b b', P b → f b a = .ok b' → P b') :
  ∀ {b b' : β}, P b → l.foldlM f b = .ok b' → P b'
  := by
  induction l with
  | nil =>
    intro b b' hb hl
    obtain rfl := pure_eq_ok.mp hl
    exact hb
  | cons a l ih =>
    intro b b' hb hl
    rw [List.foldlM_cons] at hl
    obtain ⟨m, hm, hl⟩ := bind_eq_ok.mp hl
    apply ih _ (h a (by simp) b m hb hm) hl
    intro c hc
    apply h c (by simp [hc])

namespace BoardUnit

/-- The unit keeps its uid, card and owner. -/
structure Persists (u v : BoardUnit) : Prop where
  uid : v.uid = u.uid
  cardId : v.cardId = u.cardId
  owner : v.owner = u.owner

/-- Nothing but statistics and buffs differs. -/
def Restats (u v : BoardUnit) : Prop :=
  v = { u with
    vitality := v.vitality
    vitalityMax := v.vitalityMax
    impact := v.impact
    defence := v.defence
    velocity := v.velocity
    buffs := v.buffs }

/-- While the unit is alive its vitality is not above the maximum. -/
def Bounded (u : BoardUnit) : Prop :=
  u.isAlive → u.vitality ≤ u.vitalityMax

/-- The unit keeps its uid, card, owner and cell, and its vitality stays bounded. -/
structure Endures (u v : BoardUnit) : Prop extends Persists u v where
  cell : v.cell = u.cell
  bounded : u.Bounded → v.Bounded

variable {u v w : BoardUnit}

theorem isAlive_iff :
  u.isAlive ↔ 0 < u.vitality.toInt
  := by
  rw [isAlive, decide_eq_true_eq, Int32.lt_iff_toInt_lt]
  rfl

theorem bounded_iff :
  u.Bounded ↔ (0 < u.vitality.toInt → u.vitality.toInt ≤ u.vitalityMax.toInt)
  := by
  rw [Bounded, isAlive_iff, Int32.le_iff_toInt_le]

theorem Restats.trans (huv : u.Restats v) (hvw : v.Restats w) :
  u.Restats w
  := by
  rw [Restats] at *
  rw [hvw, huv]

theorem Restats.persists (h : u.Restats v) :
  u.Persists v
  := by
  rw [h]
  exact ⟨rfl, rfl, rfl⟩

theorem Restats.endures (h : u.Restats v) (hbounded : u.Bounded → v.Bounded) :
  u.Endures v
  := by
  constructor
  · apply h.persists
  · rw [h]
  · apply hbounded

theorem Persists.refl (u : BoardUnit) :
  u.Persists u
  := ⟨rfl, rfl, rfl⟩

theorem Persists.trans (huv : u.Persists v) (hvw : v.Persists w) :
  u.Persists w
  := ⟨hvw.uid.trans huv.uid, hvw.cardId.trans huv.cardId, hvw.owner.trans huv.owner⟩

/-! ### Vitality in its range -/

/-- Vitality can be brought into its range. -/
theorem withVitality_exists (u : BoardUnit) (vitality vitalityMax : Int32) :
  ∃ v, u.withVitality vitality vitalityMax = .ok v
  := by
  have hrange : (0 : Int32).toInt ≤ (Word.nearest (max 0 vitalityMax.toInt)).toInt := by
    rw [Word.toInt_nearest, Int32.toInt_zero]
    omega
  obtain ⟨x, hx, -⟩ := Word.clamp_of_le hrange vitality
  exact ⟨_, bind_eq_ok.mpr ⟨x, hx, rfl⟩⟩

/-- Vitality is brought between zero and the maximum, which is at least zero. -/
theorem withVitality_ok {vitality vitalityMax : Int32}
    (h : u.withVitality vitality vitalityMax = .ok v) :
  v = { u with vitality := v.vitality, vitalityMax := v.vitalityMax }
    ∧ v.vitalityMax.toInt = max 0 vitalityMax.toInt
    ∧ v.vitality.toInt = max 0 (min vitality.toInt v.vitalityMax.toInt)
  := by
  obtain ⟨w, hw, h⟩ := bind_eq_ok.mp h
  obtain rfl := pure_eq_ok.mp h
  have hmax := vitalityMax.toInt_lt
  have htop : (Word.nearest (max 0 vitalityMax.toInt)).toInt = max 0 vitalityMax.toInt :=
    Word.toInt_nearest_of_le (by omega) (by omega)
  have hw := Word.toInt_of_clamp (by rw [htop, Int32.toInt_zero]; omega) hw
  rw [Int32.toInt_zero] at hw
  exact ⟨rfl, htop, hw⟩

/-- Damage lowers vitality to zero at the most. -/
theorem takeDamage_ok {amount : Int32} (h : u.takeDamage amount = .ok v) :
  v = { u with vitality := v.vitality }
    ∧ v.vitality.toInt
      = max 0 (min (u.vitality.toInt - max 0 amount.toInt) (max 0 u.vitalityMax.toInt))
  := by
  obtain ⟨w, hw, h⟩ := bind_eq_ok.mp h
  obtain ⟨w', hw', h⟩ := bind_eq_ok.mp h
  obtain rfl := pure_eq_ok.mp h
  have hamount := amount.toInt_lt
  have hmax := u.vitalityMax.toInt_lt
  have htop : (Word.nearest (max 0 u.vitalityMax.toInt)).toInt = max 0 u.vitalityMax.toInt :=
    Word.toInt_nearest_of_le (by omega) (by omega)
  have hw := Word.subtract_eq_ok_iff.mp hw
  rw [Word.toInt_nearest_of_le (by omega) (by omega)] at hw
  have hw' := Word.toInt_of_clamp (by rw [htop, Int32.toInt_zero]; omega) hw'
  rw [Int32.toInt_zero, htop, hw] at hw'
  exact ⟨rfl, hw'⟩

/-- Healing raises vitality to the maximum at the most. -/
theorem heal_ok {amount gain : Int32} (h : u.heal amount = .ok (v, gain)) :
  v = { u with vitality := v.vitality }
    ∧ v.vitality.toInt = min (u.vitality.toInt + max 0 amount.toInt) u.vitalityMax.toInt
  := by
  obtain ⟨w, hw, h⟩ := bind_eq_ok.mp h
  obtain ⟨w', hw', h⟩ := bind_eq_ok.mp h
  obtain ⟨rfl, rfl⟩ := Prod.mk.inj (pure_eq_ok.mp h)
  have hamount := amount.toInt_lt
  have hw := Word.add_eq_ok_iff.mp hw
  rw [Word.toInt_nearest_of_le (by omega) (by omega)] at hw
  use rfl
  have hlow := w.le_toInt
  have hhigh := w.toInt_lt
  have hlow' := u.vitalityMax.le_toInt
  rw [Word.toInt_nearest_of_le (by omega) (by omega), hw]

/-! ### Changes of statistics -/

/-- Vitality changes together with its maximum. -/
theorem modifyStat_vitality_ok {delta : Int32} (h : u.modifyStat delta .vitality = .ok v) :
  v = { u with vitality := v.vitality, vitalityMax := v.vitalityMax }
    ∧ v.vitalityMax.toInt = max 0 (u.vitalityMax.toInt + delta.toInt)
    ∧ v.vitality.toInt = max 0 (min (u.vitality.toInt + delta.toInt) v.vitalityMax.toInt)
  := by
  obtain ⟨top, htop, h⟩ := bind_eq_ok.mp h
  obtain ⟨vitality, hvitality, h⟩ := bind_eq_ok.mp h
  rw [← Word.add_eq_ok_iff.mp htop, ← Word.add_eq_ok_iff.mp hvitality]
  exact withVitality_ok h

/-- A change of another statistic leaves vitality alone. -/
theorem modifyStat_other_ok {stat : Stat} {delta : Int32} (hstat : stat ≠ .vitality)
    (h : u.modifyStat delta stat = .ok v) :
  v = { u with impact := v.impact, defence := v.defence, velocity := v.velocity }
  := by
  cases stat with
  | vitality => exact absurd rfl hstat
  | impact =>
    obtain ⟨w, -, h⟩ := bind_eq_ok.mp h
    obtain rfl := pure_eq_ok.mp h
    rfl
  | defence =>
    obtain ⟨w, -, h⟩ := bind_eq_ok.mp h
    obtain rfl := pure_eq_ok.mp h
    rfl
  | velocity =>
    obtain ⟨w, -, h⟩ := bind_eq_ok.mp h
    obtain rfl := pure_eq_ok.mp h
    rfl

theorem modifyStat_restats {stat : Stat} {delta : Int32} (h : u.modifyStat delta stat = .ok v) :
  u.Restats v
  := by
  by_cases hstat : stat = .vitality
  · subst hstat
    rw [Restats, (modifyStat_vitality_ok h).1]
  · rw [Restats, modifyStat_other_ok hstat h]

theorem modifyStat_bounded {stat : Stat} {delta : Int32} (h : u.modifyStat delta stat = .ok v)
    (hu : u.Bounded) :
  v.Bounded
  := by
  rw [bounded_iff] at *
  by_cases hstat : stat = .vitality
  · subst hstat
    obtain ⟨-, htop, hvitality⟩ := modifyStat_vitality_ok h
    omega
  · rw [modifyStat_other_ok hstat h]
    exact hu

/-- A buff is a change of a statistic that is noted unless it is permanent. -/
theorem addBuff_ok {stat : Stat} {delta : Int32} {expiry : Duration}
    (h : u.addBuff stat delta expiry = .ok v) :
  ∃ w, u.modifyStat delta stat = .ok w
    ∧ v = { w with
      buffs := if expiry = .permanent then w.buffs else w.buffs ++ [⟨stat, delta, expiry⟩] }
  := by
  obtain ⟨w, hw, h⟩ := bind_eq_ok.mp h
  use w, hw
  cases expiry with
  | permanent => exact (pure_eq_ok.mp h).symm
  | endOfCycle => exact (pure_eq_ok.mp h).symm
  | aura => exact (pure_eq_ok.mp h).symm

theorem addBuff_restats {stat : Stat} {delta : Int32} {expiry : Duration}
    (h : u.addBuff stat delta expiry = .ok v) :
  u.Restats v
  := by
  obtain ⟨w, hw, rfl⟩ := addBuff_ok h
  apply (modifyStat_restats hw).trans
  rfl

theorem addBuff_bounded {stat : Stat} {delta : Int32} {expiry : Duration}
    (h : u.addBuff stat delta expiry = .ok v) (hu : u.Bounded) :
  v.Bounded
  := by
  obtain ⟨w, hw, rfl⟩ := addBuff_ok h
  have hbounded := modifyStat_bounded hw hu
  exact hbounded

/-! ### Buffs that end -/

/-- A change of vitality is taken back within its range, any other one by its opposite. -/
theorem undoBuff_ok {buff : Buff} (h : u.undoBuff buff = .ok v) :
  (buff.stat = .vitality ∧ ∃ vitality top, u.withVitality vitality top = .ok v)
    ∨ (buff.stat ≠ .vitality ∧ ∃ delta, u.modifyStat delta buff.stat = .ok v)
  := by
  rw [undoBuff] at h
  split at h
  · next hstat =>
    obtain ⟨top, -, h⟩ := bind_eq_ok.mp h
    dsimp only at h
    split at h
    · obtain ⟨vitality, -, h⟩ := bind_eq_ok.mp h
      exact .inl ⟨hstat, vitality, top, h⟩
    · exact .inl ⟨hstat, u.vitality, top, h⟩
  · next hstat =>
    obtain ⟨delta, -, h⟩ := bind_eq_ok.mp h
    exact .inr ⟨hstat, delta, h⟩

theorem undoBuff_restats {buff : Buff} (h : u.undoBuff buff = .ok v) :
  u.Restats v
  := by
  obtain ⟨-, vitality, top, h⟩ | ⟨-, delta, h⟩ := undoBuff_ok h
  · rw [Restats, (withVitality_ok h).1]
  · exact modifyStat_restats h

theorem undoBuff_bounded {buff : Buff} (h : u.undoBuff buff = .ok v) (hu : u.Bounded) :
  v.Bounded
  := by
  obtain ⟨-, vitality, top, h⟩ | ⟨-, delta, h⟩ := undoBuff_ok h
  · obtain ⟨-, -, hvitality⟩ := withVitality_ok h
    rw [bounded_iff]
    omega
  · exact modifyStat_bounded h hu

theorem expireBuffs_restats {expiry : Duration} (h : u.expireBuffs expiry = .ok v) :
  u.Restats v
  := by
  apply foldlM_keeps (P := u.Restats) _ _ h
  · intro buff _ w w' hw hw'
    exact hw.trans (undoBuff_restats hw')
  · rfl

theorem expireBuffs_bounded {expiry : Duration} (h : u.expireBuffs expiry = .ok v)
    (hu : u.Bounded) :
  v.Bounded
  := by
  apply foldlM_keeps (P := Bounded) _ _ h
  · intro buff _ w w' hw hw'
    exact undoBuff_bounded hw' hw
  · exact hu

theorem expireBuffs_endures {expiry : Duration} (h : u.expireBuffs expiry = .ok v) :
  u.Endures v
  := (expireBuffs_restats h).endures (expireBuffs_bounded h)

/-! ### Damage, healing, the end of a turn -/

theorem takeDamage_restats {amount : Int32} (h : u.takeDamage amount = .ok v) :
  u.Restats v
  := by
  rw [Restats, (takeDamage_ok h).1]

theorem takeDamage_bounded {amount : Int32} (h : u.takeDamage amount = .ok v) :
  v.Bounded
  := by
  obtain ⟨hv, hvitality⟩ := takeDamage_ok h
  rw [bounded_iff]
  rw [show v.vitalityMax = u.vitalityMax by rw [hv]]
  omega

theorem heal_restats {amount gain : Int32} (h : u.heal amount = .ok (v, gain)) :
  u.Restats v
  := by
  rw [Restats, (heal_ok h).1]

theorem heal_bounded {amount gain : Int32} (h : u.heal amount = .ok (v, gain)) :
  v.Bounded
  := by
  obtain ⟨hv, hvitality⟩ := heal_ok h
  rw [bounded_iff]
  rw [show v.vitalityMax = u.vitalityMax by rw [hv]]
  omega

theorem endCycle_endures (h : u.endCycle = .ok v) :
  u.Endures v
  := by
  obtain ⟨w, hw, h⟩ := bind_eq_ok.mp h
  obtain rfl := pure_eq_ok.mp h
  have hendures := expireBuffs_endures hw
  exact ⟨⟨hendures.uid, hendures.cardId, hendures.owner⟩, hendures.cell, hendures.bounded⟩

end BoardUnit

end CardBattle
