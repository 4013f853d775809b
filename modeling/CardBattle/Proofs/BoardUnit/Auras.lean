import CardBattle.Cascade.Refresh
import CardBattle.Proofs.BoardUnit.Alteration

/-!
# Auras of a unit

A unit takes buffs one after another, and is never left without vitality by one of them
(`BoardUnit.Takes`).  Then nothing is cut off: every statistic, and the maximum of vitality,
grows by the sum of the buffs.  When they are taken back, the oldest first, every other
statistic falls by the same sum; the maximum of vitality does so unless it has to be cut off
at zero on the way.  If it has not, then the vitality that the unit lacks becomes less by the
gains taken back, as far as it can (`expireBuffs_lack`).
-/

namespace CardBattle

namespace Buff

/-- The buff takes vitality away. -/
def IsLoss (buff : Buff) : Prop :=
  buff.stat = .vitality ∧ buff.delta < 0

/-- By how much a buff raises a statistic. -/
def change (stat : Stat) (buff : Buff) : Int :=
  if buff.stat = stat then buff.delta.toInt else 0

/-- By how much buffs raise a statistic. -/
def total (stat : Stat) : List Buff → Int
  | [] => 0
  | buff :: rest => buff.change stat + total stat rest

/-- The vitality that buffs give, but for what others of them take away. -/
def gains : List Buff → Int
  | [] => 0
  | buff :: rest => max 0 (buff.change .vitality) + gains rest

/-- The vitality that buffs take away, but for what others of them give. -/
def losses : List Buff → Int
  | [] => 0
  | buff :: rest => max 0 (-buff.change .vitality) + losses rest

variable {buff : Buff} {buffs buffs' : List Buff} {stat : Stat}

@[simp]
theorem total_nil (stat : Stat) :
  total stat [] = 0
  := rfl

@[simp]
theorem total_cons (stat : Stat) (buff : Buff) (buffs : List Buff) :
  total stat (buff :: buffs) = buff.change stat + total stat buffs
  := rfl

theorem total_perm (h : buffs.Perm buffs') (stat : Stat) :
  total stat buffs = total stat buffs'
  := by
  induction h with
  | nil => rfl
  | cons buff _ ih => rw [total_cons, total_cons, ih]
  | swap buff buff' rest =>
    simp only [total_cons]
    omega
  | trans _ _ ih ih' => rw [ih, ih']

@[simp]
theorem total_append (stat : Stat) (buffs buffs' : List Buff) :
  total stat (buffs ++ buffs') = total stat buffs + total stat buffs'
  := by
  induction buffs with
  | nil => simp
  | cons buff rest ih => rw [List.cons_append, total_cons, total_cons, ih, Int.add_assoc]

@[simp]
theorem gains_nil :
  gains [] = 0
  := rfl

@[simp]
theorem gains_cons (buff : Buff) (buffs : List Buff) :
  gains (buff :: buffs) = max 0 (buff.change .vitality) + gains buffs
  := rfl

@[simp]
theorem losses_nil :
  losses [] = 0
  := rfl

@[simp]
theorem losses_cons (buff : Buff) (buffs : List Buff) :
  losses (buff :: buffs) = max 0 (-buff.change .vitality) + losses buffs
  := rfl

theorem gains_nonneg (buffs : List Buff) :
  0 ≤ gains buffs
  := by
  induction buffs with
  | nil => simp
  | cons buff rest ih =>
    rw [gains_cons]
    omega

theorem losses_nonneg (buffs : List Buff) :
  0 ≤ losses buffs
  := by
  induction buffs with
  | nil => simp
  | cons buff rest ih =>
    rw [losses_cons]
    omega

/-- What buffs change is what they give without what they take away. -/
theorem total_vitality (buffs : List Buff) :
  total .vitality buffs = gains buffs - losses buffs
  := by
  induction buffs with
  | nil => simp
  | cons buff rest ih =>
    rw [total_cons, gains_cons, losses_cons, ih]
    omega

theorem isLoss_iff :
  buff.IsLoss ↔ buff.change .vitality < 0
  := by
  rw [IsLoss, change, Int32.lt_iff_toInt_lt, Int32.toInt_zero]
  split
  · next h => simp [h]
  · next h => simp [h]

end Buff

namespace BoardUnit

/-- The vitality of the unit is between zero and its maximum. -/
structure Ranged (u : BoardUnit) : Prop where
  low : 0 ≤ u.vitality.toInt
  high : u.vitality.toInt ≤ u.vitalityMax.toInt

/-- The unit takes buffs one after another, and no loss of vitality among them is its last
one. -/
inductive Takes : List Buff → BoardUnit → BoardUnit → Prop
  | nil (u : BoardUnit) : Takes [] u u
  | cons {buff : Buff} {buffs : List Buff} {u v w : BoardUnit}
      (h : u.addBuff buff.stat buff.delta buff.expiry = .ok v) (halive : buff.IsLoss → v.isAlive)
      (hrest : Takes buffs v w) : Takes (buff :: buffs) u w

variable {u v w : BoardUnit} {buff : Buff} {buffs buffs' : List Buff}

/-- A unit that is alive and bounded has its vitality in range. -/
theorem Bounded.ranged (hu : u.Bounded) (halive : u.isAlive) :
  u.Ranged
  := by
  rw [bounded_iff] at hu
  rw [isAlive_iff] at halive
  exact ⟨by omega, hu halive⟩

/-- Units that differ only in statistics and buffs are the same if these are. -/
theorem Restats.ext (hv : u.Restats v) (hw : u.Restats w)
    (hstat : ∀ stat, (v.stat stat).toInt = (w.stat stat).toInt)
    (htop : v.vitalityMax.toInt = w.vitalityMax.toInt) (hbuffs : v.buffs = w.buffs) :
  v = w
  := by
  have hvitality : v.vitality = w.vitality := Int32.toInt_inj.mp (hstat .vitality)
  have himpact : v.impact = w.impact := Int32.toInt_inj.mp (hstat .impact)
  have hdefence : v.defence = w.defence := Int32.toInt_inj.mp (hstat .defence)
  have hvelocity : v.velocity = w.velocity := Int32.toInt_inj.mp (hstat .velocity)
  rw [hv, hw, hvitality, himpact, hdefence, hvelocity, hbuffs, Int32.toInt_inj.mp htop]

/-! ### Statistics that change -/

/-- The value of a statistic other than vitality after a change. -/
theorem modifyStat_other_stat {stat other : Stat} {delta : Int32} (hstat : stat ≠ .vitality)
    (h : u.modifyStat delta stat = .ok v) :
  (v.stat other).toInt = (u.stat other).toInt + if stat = other then delta.toInt else 0
  := by
  cases stat with
  | vitality => exact absurd rfl hstat
  | impact =>
    obtain ⟨x, hx, h⟩ := bind_eq_ok.mp h
    obtain rfl := pure_eq_ok.mp h
    cases other with
    | impact => exact Word.add_eq_ok_iff.mp hx
    | _ => exact (Int.add_zero _).symm
  | defence =>
    obtain ⟨x, hx, h⟩ := bind_eq_ok.mp h
    obtain rfl := pure_eq_ok.mp h
    cases other with
    | defence => exact Word.add_eq_ok_iff.mp hx
    | _ => exact (Int.add_zero _).symm
  | velocity =>
    obtain ⟨x, hx, h⟩ := bind_eq_ok.mp h
    obtain rfl := pure_eq_ok.mp h
    cases other with
    | velocity => exact Word.add_eq_ok_iff.mp hx
    | _ => exact (Int.add_zero _).symm

/-- A change of vitality leaves the other statistics alone. -/
theorem modifyStat_vitality_stat {stat : Stat} {delta : Int32} (hstat : stat ≠ .vitality)
    (h : u.modifyStat delta .vitality = .ok v) :
  v.stat stat = u.stat stat
  := by
  rw [(modifyStat_vitality_ok h).1]
  cases stat with
  | vitality => exact absurd rfl hstat
  | _ => rfl

/-- A change of a statistic leaves the buffs alone. -/
theorem modifyStat_buffs {stat : Stat} {delta : Int32} (h : u.modifyStat delta stat = .ok v) :
  v.buffs = u.buffs
  := by
  by_cases hstat : stat = .vitality
  · subst hstat
    rw [(modifyStat_vitality_ok h).1]
  · rw [modifyStat_other_ok hstat h]

@[simp]
theorem stat_withBuffs (u : BoardUnit) (buffs : List Buff) (stat : Stat) :
  { u with buffs }.stat stat = u.stat stat
  := by cases stat <;> rfl

/-- What a unit has become by buffs that have cut nothing off. -/
structure Gains (buffs : List Buff) (u v : BoardUnit) : Prop where
  restats : u.Restats v
  noted : v.buffs = u.buffs ++ buffs
  stat : ∀ stat, (v.stat stat).toInt = (u.stat stat).toInt + Buff.total stat buffs
  top : v.vitalityMax.toInt = u.vitalityMax.toInt + Buff.total .vitality buffs
  ranged : v.Ranged

/-- Nothing is cut off when a statistic changes and the unit stays alive. -/
theorem modifyStat_exact (hu : u.Ranged) (h : u.modifyStat buff.delta buff.stat = .ok v)
    (halive : buff.IsLoss → v.isAlive) :
  (∀ stat, (v.stat stat).toInt = (u.stat stat).toInt + buff.change stat)
    ∧ v.vitalityMax.toInt = u.vitalityMax.toInt + buff.change .vitality ∧ v.Ranged
  := by
  obtain ⟨low, high⟩ := hu
  rw [Buff.isLoss_iff, isAlive_iff] at halive
  by_cases hstat : buff.stat = .vitality
  · have hchange : ∀ stat, stat ≠ .vitality → buff.change stat = 0 := by
      intro stat hne
      rw [Buff.change, if_neg]
      rw [hstat]
      exact Ne.symm hne
    have hdelta : buff.change .vitality = buff.delta.toInt := by rw [Buff.change, if_pos hstat]
    rw [hstat] at h
    obtain ⟨-, htop, hvitality⟩ := modifyStat_vitality_ok h
    refine ⟨?_, by omega, by omega, by omega⟩
    intro stat
    by_cases hne : stat = .vitality
    · subst hne
      change v.vitality.toInt = u.vitality.toInt + _
      omega
    · rw [modifyStat_vitality_stat hne h, hchange stat hne, Int.add_zero]
  · have hothers := modifyStat_other_ok hstat h
    have hvitality : v.vitality = u.vitality := by rw [hothers]
    have htop : v.vitalityMax = u.vitalityMax := by rw [hothers]
    refine ⟨?_, ?_, ?_, ?_⟩
    · intro stat
      apply modifyStat_other_stat hstat h
    · rw [htop, Buff.change, if_neg hstat, Int.add_zero]
    · rwa [hvitality]
    · rwa [hvitality, htop]

/-- Nothing is cut off when a unit takes the buff of an aura and stays alive. -/
theorem addBuff_gains (hu : u.Ranged) (haura : buff.expiry = .aura)
    (h : u.addBuff buff.stat buff.delta buff.expiry = .ok v) (halive : buff.IsLoss → v.isAlive) :
  u.Gains [buff] v
  := by
  have hrestats := addBuff_restats h
  obtain ⟨w, hw, rfl⟩ := addBuff_ok h
  obtain ⟨hstat, htop, hranged⟩ := modifyStat_exact hu hw halive
  have hbuffs := modifyStat_buffs hw
  refine ⟨hrestats, ?_, ?_, ?_, ⟨hranged.low, hranged.high⟩⟩
  · dsimp only
    rw [if_neg (by rw [haura]; simp), hbuffs]
  · intro stat
    rw [stat_withBuffs, hstat, Buff.total_cons, Buff.total_nil, Int.add_zero]
  · rw [Buff.total_cons, Buff.total_nil, Int.add_zero]
    exact htop

theorem Gains.trans (h : u.Gains buffs v) (h' : v.Gains buffs' w) :
  u.Gains (buffs ++ buffs') w
  := by
  refine ⟨h.restats.trans h'.restats, ?_, ?_, ?_, h'.ranged⟩
  · rw [h'.noted, h.noted, List.append_assoc]
  · intro stat
    rw [h'.stat, h.stat, Buff.total_append, Int.add_assoc]
  · rw [h'.top, h.top, Buff.total_append, Int.add_assoc]

theorem Takes.restats (h : Takes buffs u v) :
  u.Restats v
  := by
  induction h with
  | nil => rfl
  | cons h _ _ ih => exact (addBuff_restats h).trans ih

/-- Nothing is cut off when a unit takes the buffs of auras. -/
theorem Takes.gains (h : Takes buffs u v) (hu : u.Ranged)
    (hauras : ∀ buff ∈ buffs, buff.expiry = .aura) :
  u.Gains buffs v
  := by
  induction h with
  | nil u => exact ⟨rfl, by simp, by simp, by simp, hu⟩
  | cons h halive _ ih =>
    have hgains := addBuff_gains hu (hauras _ List.mem_cons_self) h halive
    apply hgains.trans (ih hgains.ranged _)
    intro buff hbuff
    apply hauras buff (List.mem_cons_of_mem _ hbuff)

/-! ### Auras that are taken back -/

/-- The value of a statistic other than vitality after a change of it has been taken back. -/
theorem undoBuff_other {stat : Stat} (hstat : stat ≠ .vitality) (h : u.undoBuff buff = .ok v) :
  (v.stat stat).toInt = (u.stat stat).toInt - buff.change stat
  := by
  rw [undoBuff] at h
  split at h
  · next hvitality =>
    obtain ⟨top, -, h⟩ := bind_eq_ok.mp h
    have hothers : ∃ vitality top, u.withVitality vitality top = .ok v := by
      dsimp only at h
      split at h
      · obtain ⟨vitality, -, h⟩ := bind_eq_ok.mp h
        exact ⟨_, _, h⟩
      · exact ⟨_, _, h⟩
    obtain ⟨vitality, top, h⟩ := hothers
    have hchange : buff.change stat = 0 := by
      rw [Buff.change, if_neg]
      rw [hvitality]
      exact Ne.symm hstat
    rw [hchange, Int.sub_zero, (withVitality_ok h).1]
    cases stat with
    | vitality => exact absurd rfl hstat
    | _ => rfl
  · next hother =>
    obtain ⟨delta, hdelta, h⟩ := bind_eq_ok.mp h
    have hdelta : delta.toInt = -buff.delta.toInt := Word.exact_eq_ok_iff.mp hdelta
    rw [modifyStat_other_stat hother h, Buff.change, hdelta]
    split <;> omega

/-- The vitality after a change has been taken back from a unit that is in range. -/
theorem undoBuff_vitality (hu : u.Ranged) (h : u.undoBuff buff = .ok v) :
  v.Ranged ∧ v.vitalityMax.toInt = max 0 (u.vitalityMax.toInt - buff.change .vitality)
    ∧ (v.vitalityMax.toInt = u.vitalityMax.toInt - buff.change .vitality →
      v.vitalityMax.toInt - v.vitality.toInt
        = max 0 (u.vitalityMax.toInt - u.vitality.toInt - max 0 (buff.change .vitality)))
  := by
  obtain ⟨low, high⟩ := hu
  rw [undoBuff] at h
  split at h
  · next hvitality =>
    obtain ⟨top, htop, h⟩ := bind_eq_ok.mp h
    have htop := Word.subtract_eq_ok_iff.mp htop
    rw [Buff.change, if_pos hvitality]
    dsimp only at h
    split at h
    · next hloss =>
      rw [Int32.lt_iff_toInt_lt, Int32.toInt_zero] at hloss
      obtain ⟨vitality, hvit, h⟩ := bind_eq_ok.mp h
      have hvit := Word.subtract_eq_ok_iff.mp hvit
      obtain ⟨-, htop', hvit'⟩ := withVitality_ok h
      refine ⟨⟨by omega, by omega⟩, by omega, by omega⟩
    · next hgain =>
      rw [Int32.lt_iff_toInt_lt, Int32.toInt_zero] at hgain
      obtain ⟨-, htop', hvit'⟩ := withVitality_ok h
      refine ⟨⟨by omega, by omega⟩, by omega, by omega⟩
  · next hother =>
    obtain ⟨delta, -, h⟩ := bind_eq_ok.mp h
    have hothers := modifyStat_other_ok hother h
    have hvitality : v.vitality = u.vitality := by rw [hothers]
    have htop : v.vitalityMax = u.vitalityMax := by rw [hothers]
    rw [Buff.change, if_neg hother, htop, hvitality]
    refine ⟨⟨by rwa [hvitality], by rwa [hvitality, htop]⟩, by omega, by omega⟩

theorem undoBuff_buffs (h : u.undoBuff buff = .ok v) :
  v.buffs = u.buffs
  := by
  obtain ⟨-, vitality, top, h⟩ | ⟨hstat, delta, h⟩ := undoBuff_ok h
  · rw [(withVitality_ok h).1]
  · apply modifyStat_buffs h

/-- The value of a statistic other than vitality after changes have been taken back. -/
theorem undoBuffs_other {stat : Stat} (hstat : stat ≠ .vitality)
    (h : buffs.foldlM undoBuff u = .ok v) :
  (v.stat stat).toInt = (u.stat stat).toInt - Buff.total stat buffs
  := by
  induction buffs generalizing u with
  | nil =>
    obtain rfl := pure_eq_ok.mp h
    rw [Buff.total_nil, Int.sub_zero]
  | cons buff rest ih =>
    rw [List.foldlM_cons] at h
    obtain ⟨m, hm, h⟩ := bind_eq_ok.mp h
    rw [ih h, undoBuff_other hstat hm, Buff.total_cons]
    omega

/-- The vitality after changes have been taken back.  If its maximum has fallen by all that
they gave, then it has not been cut off by any of them. -/
theorem undoBuffs_vitality (hu : u.Ranged) (h : buffs.foldlM undoBuff u = .ok v) :
  v.Ranged ∧ u.vitalityMax.toInt - Buff.total .vitality buffs ≤ v.vitalityMax.toInt
    ∧ (v.vitalityMax.toInt = u.vitalityMax.toInt - Buff.total .vitality buffs →
      v.vitalityMax.toInt - v.vitality.toInt
        = max 0 (u.vitalityMax.toInt - u.vitality.toInt - Buff.gains buffs))
  := by
  induction buffs generalizing u with
  | nil =>
    obtain rfl := pure_eq_ok.mp h
    have low := hu.low
    have high := hu.high
    simp only [Buff.total_nil, Buff.gains_nil]
    exact ⟨hu, by omega, by omega⟩
  | cons buff rest ih =>
    rw [List.foldlM_cons] at h
    obtain ⟨m, hm, h⟩ := bind_eq_ok.mp h
    obtain ⟨hranged, htop, hlack⟩ := undoBuff_vitality hu hm
    obtain ⟨hranged', htop', hlack'⟩ := ih hranged h
    have hgains := Buff.gains_nonneg rest
    rw [Buff.total_cons, Buff.gains_cons]
    refine ⟨hranged', by omega, ?_⟩
    intro hwhole
    rw [hlack' (by omega), hlack (by omega)]
    omega

/-- The unit with the vitality that it has, and without the buffs of a duration. -/
theorem expireBuffs_buffs {expiry : Duration} (h : u.expireBuffs expiry = .ok v) :
  v.buffs = u.buffs.filter (fun buff => buff.expiry ≠ expiry)
  := by
  apply foldlM_keeps (P := fun w => w.buffs = u.buffs.filter fun buff => buff.expiry ≠ expiry) _ _ h
  · intro buff _ w w' hw hw'
    rw [undoBuff_buffs hw', hw]
  · rfl

/-- No buff of the duration is left. -/
theorem expireBuffs_expiring {expiry : Duration} (h : u.expireBuffs expiry = .ok v) :
  v.expiring expiry = []
  := by
  rw [expiring, expireBuffs_buffs h, List.filter_filter]
  apply List.filter_eq_nil_iff.mpr
  intro buff _
  simp

theorem expireBuffs_other {expiry : Duration} {stat : Stat} (hstat : stat ≠ .vitality)
    (h : u.expireBuffs expiry = .ok v) :
  (v.stat stat).toInt = (u.stat stat).toInt - Buff.total stat (u.expiring expiry)
  := by
  rw [undoBuffs_other hstat h, stat_withBuffs]

theorem expireBuffs_ranged {expiry : Duration} (hu : u.Ranged)
    (h : u.expireBuffs expiry = .ok v) :
  v.Ranged
  := by
  rw [expireBuffs] at h
  exact (undoBuffs_vitality (by exact ⟨hu.low, hu.high⟩) h).1

/-- Taking back the auras of the unit takes all of what they gave from its maximum of
vitality, which is never cut off at zero on the way. -/
def YieldsAuras (u : BoardUnit) : Prop :=
  ∀ v, u.expireBuffs .aura = .ok v →
    v.vitalityMax.toInt = u.vitalityMax.toInt - Buff.total .vitality (u.expiring .aura)

/-- Where nothing is cut off, the unit lacks less vitality when its auras are taken back, by
all that they gave, as far as it lacked so much. -/
theorem YieldsAuras.lack (hyields : u.YieldsAuras) (hu : u.Ranged)
    (h : u.expireBuffs .aura = .ok v) :
  v.vitalityMax.toInt - v.vitality.toInt
    = max 0 (u.vitalityMax.toInt - u.vitality.toInt - Buff.gains (u.expiring .aura))
  := by
  have hwhole := hyields v h
  rw [expireBuffs] at h
  exact (undoBuffs_vitality (by exact ⟨hu.low, hu.high⟩) h).2.2 hwhole

end BoardUnit

end CardBattle
