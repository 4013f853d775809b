import CardBattle.AttackModifier

/-!
# Plain and boosted damage

An attack modifier that ignores no negative defence, and leaves the impact at least as it
is, does not lessen the damage to a target whose defence is not negative.

A negative defence, which only scripts can bring about, is where the two ways of computing
part.  A plain attack adds what the defence lacks to the damage; an attack with a modifier
counts the defence as zero.  So the damage with a modifier is at least the plain damage to
a target of defence zero, and it is at least the plain damage to the target itself only if
the gain in impact makes up for the lacking defence.
-/

namespace CardBattle

/-! ### The values -/

/-- Without a modifier, the damage is the exact difference, cut off at one and at the
greatest word. -/
theorem toInt_damage_none (impact defence : Int32) :
  (damage impact defence none).toInt = max 1 (min (impact.toInt - defence.toInt) 0x7fffffff)
  := by
  simp only [damage, Word.toInt_nearest]
  omega

/-- With a modifier, it is so for the impact and the defence that count. -/
theorem toInt_damage_some (impact defence : Int32) (m : AttackModifier) :
  (damage impact defence (some m)).toInt
    = max 1 (min ((m.effectiveImpact impact).toInt - (m.effectiveDefence defence).toInt)
        0x7fffffff)
  := by
  simp only [damage, Word.toInt_nearest]
  omega

theorem one_le_damage (impact defence : Int32) (modifier : Option AttackModifier) :
  1 ≤ damage impact defence modifier
  := by
  rw [Int32.le_iff_toInt_le, Int32.toInt_one]
  cases modifier with
  | none =>
    rw [toInt_damage_none]
    omega
  | some m =>
    rw [toInt_damage_some]
    omega

/-- The defence that counts is what is left of the defence, and not less than zero. -/
theorem AttackModifier.toInt_effectiveDefence {m : AttackModifier}
    (hignored : 0 ≤ m.ignoredDefence) (defence : Int32) :
  (m.effectiveDefence defence).toInt
    = max 0 ((if m.ignoresDefence then 0 else defence.toInt) - m.ignoredDefence.toInt)
  := by
  have hnonneg := Int32.le_iff_toInt_le.mp hignored
  have hhigh := Int32.toInt_lt defence
  rw [Int32.toInt_zero] at hnonneg
  rw [effectiveDefence, Word.toInt_nearest]
  split <;> omega

/-- What counts of a defence is not more than the defence, unless this is negative. -/
theorem AttackModifier.toInt_effectiveDefence_le {m : AttackModifier}
    (hignored : 0 ≤ m.ignoredDefence) (defence : Int32) :
  (m.effectiveDefence defence).toInt ≤ max 0 defence.toInt
  := by
  have hnonneg := Int32.le_iff_toInt_le.mp hignored
  rw [Int32.toInt_zero] at hnonneg
  rw [toInt_effectiveDefence hignored]
  split <;> omega

/-- A negative defence counts as zero. -/
theorem AttackModifier.effectiveDefence_of_neg {m : AttackModifier}
    (hignored : 0 ≤ m.ignoredDefence) {defence : Int32} (hdefence : defence < 0) :
  m.effectiveDefence defence = 0
  := by
  have hnonneg := Int32.le_iff_toInt_le.mp hignored
  have hneg := Int32.lt_iff_toInt_lt.mp hdefence
  rw [Int32.toInt_zero] at hnonneg hneg
  rw [← Int32.toInt_inj, toInt_effectiveDefence hignored, Int32.toInt_zero]
  split <;> omega

/-! ### The comparison -/

/-- A modifier that does not weaken the impact and ignores no negative defence: its attack
does at least one damage, as the plain attack does, and all of it is exact up to the
greatest word.  It does not do less than the plain attack if the defence is not negative.
A negative defence counts as zero, so the attack does not do less than a plain one against
defence zero, and compares with the plain one against that defence as the impact that
counts does with what the plain one does. -/
theorem damage_le_boosted {m : AttackModifier} {impact : Int32}
    (hignored : 0 ≤ m.ignoredDefence) (himpact : impact ≤ m.effectiveImpact impact)
    (defence : Int32) :
  1 ≤ damage impact defence none
  ∧ 1 ≤ damage impact defence (some m)
  ∧ (damage impact defence none).toInt
      = max 1 (min (impact.toInt - defence.toInt) 0x7fffffff)
  ∧ (damage impact defence (some m)).toInt
      = max 1 (min ((m.effectiveImpact impact).toInt - (m.effectiveDefence defence).toInt)
          0x7fffffff)
  ∧ (0 ≤ defence → damage impact defence none ≤ damage impact defence (some m))
  ∧ (defence < 0 →
      m.effectiveDefence defence = 0
      ∧ damage impact 0 none ≤ damage impact defence (some m)
      ∧ (damage impact defence none ≤ damage impact defence (some m)
          ↔ (damage impact defence none).toInt ≤ max 1 (m.effectiveImpact impact).toInt))
  := by
  have hgain := Int32.le_iff_toInt_le.mp himpact
  have hplain := toInt_damage_none impact defence
  have hboosted := toInt_damage_some impact defence m
  refine ⟨one_le_damage .., one_le_damage .., hplain, hboosted, ?_, ?_⟩
  · intro hdefence
    have hnonneg := Int32.le_iff_toInt_le.mp hdefence
    have hkept := m.toInt_effectiveDefence_le hignored defence
    rw [Int32.toInt_zero] at hnonneg
    rw [Int32.le_iff_toInt_le]
    omega
  · intro hdefence
    have hzero := m.effectiveDefence_of_neg hignored hdefence
    have hnone := toInt_damage_none impact 0
    have hhigh := Int32.toInt_lt (m.effectiveImpact impact)
    rw [hzero, Int32.toInt_zero] at hboosted
    rw [Int32.toInt_zero] at hnone
    refine ⟨hzero, ?_, ?_⟩
    · rw [Int32.le_iff_toInt_le]
      omega
    · rw [Int32.le_iff_toInt_le]
      omega

/-- Half as much impact again, and two of the defence ignored: three damage against
defence four. -/
theorem damage_le_boosted_against_four :
  let m : AttackModifier := { impactFactor := 1.5, impactBonus := 1, ignoredDefence := 2 }
  damage 3 4 none = 1 ∧ damage 3 4 (some m) = 3
    ∧ damage 3 4 none ≤ damage 3 4 (some m)
  := by
  intro m
  have hgain : 3 ≤ m.effectiveImpact 3 := by decide +kernel
  obtain ⟨-, -, -, -, hle, -⟩ := damage_le_boosted (by decide) hgain 4
  exact ⟨by decide +kernel, by decide +kernel, hle (by decide)⟩

/-- Against a negative defence, a modifier that changes nothing lessens the damage. -/
theorem boosted_lt_damage :
  let m : AttackModifier := {}
  0 ≤ m.ignoredDefence ∧ 3 ≤ m.effectiveImpact 3
  ∧ damage 3 (-5) (some m) < damage 3 (-5) none
  := by
  decide +kernel

end CardBattle
