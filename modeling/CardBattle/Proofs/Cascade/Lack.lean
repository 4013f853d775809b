import CardBattle.Proofs.Cascade.Frame
import CardBattle.Proofs.Cascade.Recomputation

/-!
# A refresh heals no unit

Before a refresh takes the auras back it notes what every unit lacks of its maximum of vitality,
and after the last broadcast it lowers the vitality of the units to what was noted.  Whatever
the scripts in between have done, a unit that is then left with any vitality lacks at least as
much as before (`Ruleset.remake_lack`).  Only the last sweep comes after that, and it leaves the
units alone if it eliminates none (`refresh_heals_no_unit`).
-/

namespace CardBattle

open Change

namespace BoardUnit

variable {u : BoardUnit} {l : Lacks} {noted : Int32}

/-- What the unit lacks of its maximum of vitality. -/
def lack (u : BoardUnit) : Int :=
  u.vitalityMax.toInt - u.vitality.toInt

/-- A unit that keeps its lack and is alive lacks no less than was noted. -/
theorem toInt_le_lack_keepLack (hnoted : l.of? u.uid = some noted)
    (halive : (u.keepLack l).isAlive) :
  noted.toInt ≤ (u.keepLack l).lack
  := by
  have hhigh := u.vitality.toInt_lt
  rw [isAlive_iff] at halive
  rw [keepLack, hnoted] at halive ⊢
  dsimp only [lack] at *
  rw [Word.toInt_nearest_of_le (by omega) (by omega)] at *
  -- Vitality is positive, so it is not the zero that a negative one would be raised to.
  omega

end BoardUnit

namespace Ruleset

variable {rules : Ruleset} {b m b' : Battle} {player : UInt8} {first second : Trigger}

/-- A refresh up to its last sweep: the auras are taken back and made anew, and the units keep
what they lacked. -/
def remake (rules : Ruleset) (player : UInt8) (first second : Trigger) : Change := fun b => do
  let lacks ← b.lacks
  let b ← b.changeAll fun u => u.expireBuffs .aura
  let (b, report) ← (forEach (fun trigger => rules.emit { trigger, player }) [first, second]) b
  let b ← b.changeAll fun u => .ok (u.keepLack lacks)
  return (b, report)

/-- After the auras are made anew, a refresh sweeps. -/
theorem refresh_eq_andThen (rules : Ruleset) (player : UInt8) (first second : Trigger) :
  rules.refresh player first second
    = (rules.remake player first second).andThen (rules.sweep none 1)
  := by
  funext b
  simp only [refresh, remake, andThen, bind_assoc, pure_bind]

/-- What the first part of a refresh leads to, step by step. -/
theorem remake_leads (h : (rules.remake player first second).Leads b m) :
  ∃ lacks m₁ m₂, b.lacks = .ok lacks
    ∧ b.changeAll (fun u => u.expireBuffs .aura) = .ok m₁
    ∧ (forEach (fun trigger => rules.emit { trigger, player }) [first, second]).Leads m₁ m₂
    ∧ m₂.changeAll (fun u => .ok (u.keepLack lacks)) = .ok m
  := by
  obtain ⟨r, h⟩ := h
  obtain ⟨lacks, hlacks, h⟩ := bind_eq_ok.mp h
  obtain ⟨m₁, hexpire, h⟩ := bind_eq_ok.mp h
  obtain ⟨⟨m₂, s⟩, hannounce, h⟩ := bind_eq_ok.mp h
  obtain ⟨m₃, hkeep, h⟩ := bind_eq_ok.mp h
  obtain ⟨rfl, -⟩ := Prod.mk.inj (pure_eq_ok.mp h)
  exact ⟨lacks, m₁, m₂, hlacks, hexpire, ⟨s, hannounce⟩, hkeep⟩

/-- A battle in which the auras have been made anew is coherent. -/
theorem remake_coherent (hb : b.Coherent) (h : (rules.remake player first second).Leads b m) :
  m.Coherent
  := by
  obtain ⟨lacks, m₁, m₂, -, hexpire, hannounce, hkeep⟩ := remake_leads h
  have hm₁ := hb.changeAll (fun _ _ => BoardUnit.expireBuffs_endures) hexpire
  apply (hm₁.moves (emits_moves rules.emit_moves hannounce)).changeAll _ hkeep
  intro u v hv
  obtain rfl := Except.ok.inj hv
  apply BoardUnit.keepLack_endures

/-- A unit that is alive when the auras have been made anew was there before, and it lacked no
more than now. -/
theorem remake_lack (hb : b.Coherent) (h : (rules.remake player first second).Leads b m)
    {v : BoardUnit} (hv : v ∈ m.units) (halive : v.isAlive) :
  ∃ u, b.find? v.uid = some u ∧ u.lack ≤ v.lack
  := by
  obtain ⟨lacks, m₁, m₂, hlacks, hexpire, hannounce, hkeep⟩ := remake_leads h
  obtain ⟨w, hw, rfl⟩ := (Battle.changeAll_ok hkeep).exists_unit hv
  -- The unit is followed back by its uid, since nothing else of it need be the same.
  have hm₁ := hb.changeAll (fun _ _ => BoardUnit.expireBuffs_endures) hexpire
  obtain ⟨w₁, hw₁, hpersists₁⟩ :=
    (hm₁.moves_keep (emits_moves rules.emit_moves hannounce)).units w hw
  obtain ⟨u, hu, hpersists⟩ := (Battle.changeAll_eq_ok.mp hexpire).exists_unit hw₁
  have huid : w.uid = u.uid :=
    hpersists₁.uid.trans (BoardUnit.expireBuffs_restats hpersists).persists.uid
  obtain ⟨noted, hnoted, hlack⟩ := of?_lacks hb.distinct hlacks hu
  use u
  constructor
  · rw [(BoardUnit.keepLack_restats lacks w).persists.uid, huid]
    exact Battle.find?_of_mem hb.distinct hu
  · have hleast := BoardUnit.toInt_le_lack_keepLack (huid ▸ hnoted) halive
    rwa [hlack] at hleast

end Ruleset

/-- A refresh heals no unit.  If its last sweep eliminates none, then every unit that is on the
boards afterwards was there before, and it lacks no less of its maximum of vitality than it did
then, whatever the scripts of the continuous effects have done in between. -/
theorem refresh_heals_no_unit {rules : Ruleset} {b m b' : Battle} (hb : b.corruption? = none)
    {player : UInt8} {first second : Trigger}
    (hremake : (rules.remake player first second).Leads b m)
    (hsweep : (rules.sweep none 1).LeadsCalmly m b') :
  (rules.refresh player first second).Leads b b'
    ∧ ∀ v ∈ b'.units, ∃ u, b.find? v.uid = some u ∧ u.lack ≤ v.lack
  := by
  have hcoherent := (Battle.corruption?_eq_none_iff.mp hb).toCoherent
  have hrefresh : (rules.refresh player first second).Leads b b' := by
    rw [Ruleset.refresh_eq_andThen]
    exact leads_andThen.mpr ⟨m, hremake, hsweep.1⟩
  use hrefresh
  intro v hv
  have hm := Ruleset.remake_coherent hcoherent hremake
  obtain ⟨rfl, halive⟩ := (sweepWith_calmly hm rules.emit_moves none 1).mp hsweep
  exact Ruleset.remake_lack hcoherent hremake hv (halive v hv)

/-- A unit card whose first effect heals the unit, and whose second one raises its vitality. -/
def Card.tending : Card :=
  { id := "tending"
    name := "Tending"
    stats := { vitality := 5 }
    abilities := [{
      kind := .passive
      rules := [
        { trigger := .ruleMod, script := [.heal .self 3] },
        { trigger := .aura, script := [.modifyStat .self .vitality 2 .aura] }] }] }

/-- A unit with 1 of 5 is left with 3 of 7, although it is healed and strengthened. -/
theorem refresh_heals_no_unit_tending :
  let rules := Ruleset.ofCard .tending
  let b := (Battle.vigil .tending).replace
    { BoardUnit.ofCard ⟨1⟩ 0 ⟨.front, 0⟩ .tending with vitality := 1 }
  b.corruption? = none ∧ ∃ b', (rules.refresh 0 .ruleMod .aura).Leads b b'
    ∧ (b'.units.map fun v => (v.vitality, v.vitalityMax)) = [(3, 7)]
    ∧ ∀ v ∈ b'.units, ∃ u, b.find? v.uid = some u ∧ u.lack ≤ v.lack
  := by
  intro rules b
  have hb : b.corruption? = none := by decide
  obtain ⟨m, hm, hlength⟩ := exists_leads (c := rules.remake 0 .ruleMod .aura) (b := b)
    (p := fun m => ((rules.sweep none 1 m).toOption.any fun result =>
      result.1.units.length = m.units.length
        && (result.1.units.map fun v => (v.vitality, v.vitalityMax)) = [(3, 7)]))
    (by decide +kernel)
  obtain ⟨b', hb', hleft⟩ := exists_leads (c := rules.sweep none 1) (b := m)
    (p := fun b' => b'.units.length = m.units.length
      && (b'.units.map fun v => (v.vitality, v.vitalityMax)) = [(3, 7)]) hlength
  simp only [Bool.and_eq_true, decide_eq_true_eq] at hleft
  obtain ⟨hheals, hlacks⟩ := refresh_heals_no_unit hb hm ⟨hb', hleft.1⟩
  exact ⟨hb, b', hheals, hleft.2, hlacks⟩

end CardBattle
