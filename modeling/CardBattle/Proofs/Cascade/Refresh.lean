import CardBattle.Cascade.Refresh
import CardBattle.Proofs.BoardUnit.Statistics

/-!
# The parts of a refresh

A refresh takes the changes of auras back, broadcasts two triggers, lowers vitality to what
the units lacked before, and sweeps.  Both changes of all units concern nothing but their
statistics and buffs.
-/

namespace CardBattle

open Change

namespace BoardUnit

variable {u : BoardUnit} {l : Lacks}

/-- The lack of a unit is kept by its vitality alone. -/
theorem keepLack_eq (l : Lacks) (u : BoardUnit) :
  u.keepLack l = { u with vitality := (u.keepLack l).vitality }
  := by
  rw [keepLack]
  split <;> rfl

theorem keepLack_restats (l : Lacks) (u : BoardUnit) :
  u.Restats (u.keepLack l)
  := by
  rw [Restats, keepLack_eq]

/-- A unit that keeps its lack has no more vitality than before. -/
theorem toInt_keepLack_le (hu : 0 < (u.keepLack l).vitality.toInt) :
  (u.keepLack l).vitality.toInt ≤ u.vitality.toInt
  := by
  rw [keepLack] at *
  split
  · next lack hlack =>
    rw [hlack] at hu
    have hhigh := u.vitality.toInt_lt
    dsimp only at *
    rw [Word.toInt_nearest_of_le (by omega) (by omega)] at *
    omega
  · apply Int.le_refl

theorem keepLack_bounded (hu : u.Bounded) :
  (u.keepLack l).Bounded
  := by
  rw [bounded_iff] at *
  intro halive
  have hle := toInt_keepLack_le halive
  rw [keepLack_eq]
  change _ ≤ u.vitalityMax.toInt
  have hbounded := hu (by omega)
  change (u.keepLack l).vitality.toInt ≤ _
  omega

theorem keepLack_endures (l : Lacks) (u : BoardUnit) :
  u.Endures (u.keepLack l)
  := (keepLack_restats l u).endures keepLack_bounded

end BoardUnit

/-- What a refresh leads to, step by step. -/
theorem Ruleset.refresh_leads {rules : Ruleset} {player : UInt8} {first second : Trigger}
    {b b' : Battle} :
  (rules.refresh player first second).Leads b b' ↔ ∃ lacks m₁ m₂ m₃, b.lacks = .ok lacks
    ∧ b.changeAll (fun u => u.expireBuffs .aura) = .ok m₁
    ∧ (forEach (fun trigger => rules.emit { trigger, player }) [first, second]).Leads m₁ m₂
    ∧ m₂.changeAll (fun u => .ok (u.keepLack lacks)) = .ok m₃
    ∧ (rules.sweep none 1).Leads m₃ b'
  := by
  constructor
  · rintro ⟨r, h⟩
    obtain ⟨lacks, hlacks, h⟩ := bind_eq_ok.mp h
    obtain ⟨m₁, hexpire, h⟩ := bind_eq_ok.mp h
    obtain ⟨⟨m₂, s⟩, hannounce, h⟩ := bind_eq_ok.mp h
    obtain ⟨m₃, hkeep, h⟩ := bind_eq_ok.mp h
    obtain ⟨⟨m₄, t⟩, hsweep, h⟩ := bind_eq_ok.mp h
    obtain ⟨rfl, -⟩ := Prod.mk.inj (pure_eq_ok.mp h)
    exact ⟨lacks, m₁, m₂, m₃, hlacks, hexpire, ⟨s, hannounce⟩, hkeep, t, hsweep⟩
  · rintro ⟨lacks, m₁, m₂, m₃, hlacks, hexpire, ⟨s, hannounce⟩, hkeep, t, hsweep⟩
    use s ++ t
    apply bind_eq_ok.mpr ⟨lacks, hlacks, _⟩
    apply bind_eq_ok.mpr ⟨m₁, hexpire, _⟩
    apply bind_eq_ok.mpr ⟨(m₂, s), hannounce, _⟩
    apply bind_eq_ok.mpr ⟨m₃, hkeep, _⟩
    apply bind_eq_ok.mpr ⟨(b', t), hsweep, _⟩
    rfl

end CardBattle
