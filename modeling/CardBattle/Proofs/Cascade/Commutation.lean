import CardBattle.Proofs.Cascade.Recomputation
import CardBattle.Proofs.Cascade.Reordering

/-!
# The order of the continuous effects

A refresh broadcasts the two triggers of continuous effects in one order or the other.  If no
unit is eliminated in the meantime, every unit is granted the same auras in both orders, and
they come to the same sum, so that both orders lead to the same battle but for the order of
the buffs (`refresh_comm`).  The units that fall in the sweep at the end, and all that comes of
their departure, are the same too.  A unit that would not survive one of the orders can
survive the other (`refresh_comm_fails`).
-/

namespace CardBattle

open Change

/-- The same is granted to a unit, in another order. -/
theorem grantedTo_perm {grants grants' : List Grant} (h : grants.Perm grants') (uid : Uid) :
  (grantedTo uid grants).Perm (grantedTo uid grants')
  := (h.filter _).map _

/-- What two continuous effects grant does not depend on their order. -/
theorem Ruleset.continuousGrants_perm (rules : Ruleset) (b : Battle) (player : UInt8)
    (first second : Trigger) :
  (rules.continuousGrants b player first second).Perm
    (rules.continuousGrants b player second first)
  := (List.Perm.swap second first []).flatMap_right _

/-- When the same auras are handed out in two orders, only the order of the buffs differs. -/
theorem HandsOut.reorders {grants grants' : List Grant} {m m₁ m₂ : Battle}
    (h₁ : HandsOut grants m m₁) (h₂ : HandsOut grants' m m₂) (hgrants : grants.Perm grants')
    (hauras : ∀ grant ∈ grants, grant.buff.expiry = .aura) (hm : m.Coherent)
    (hranged : ∀ u ∈ m.units, u.Ranged) :
  m₁.Reorders m₂
  := by
  have hfirst : m.InPlace (fun u v => u.Ranged ∧ BoardUnit.Takes (grantedTo u.uid grants) u v) m₁ :=
    (h₁.inPlace hm).mono fun u hu v _ htakes => ⟨hranged u hu, htakes⟩
  apply (hfirst.symm.trans (h₂.inPlace hm)).mono
  rintro v - w - ⟨u, ⟨hu, hv⟩, hw⟩
  apply (hv.gains hu _).reorders (hw.gains hu _) (grantedTo_perm hgrants u.uid)
  · intro buff hbuff
    exact hauras _ (mem_of_mem_grantedTo hbuff)
  · intro buff hbuff
    exact hauras _ (hgrants.mem_iff.mpr (mem_of_mem_grantedTo hbuff))

/-- No unit is eliminated while a refresh broadcasts its two triggers. -/
def Ruleset.BroadcastsCalmly (rules : Ruleset) (player : UInt8) (first second : Trigger)
    (b : Battle) : Prop :=
  ∃ m m', b.changeAll (fun u => u.expireBuffs .aura) = .ok m
    ∧ (forEach (fun trigger => rules.emit { trigger, player }) [first, second]).LeadsCalmly m m'

/-- The order of the continuous effects does not matter.  If no unit is eliminated while their
triggers are broadcast, in either order, then both orders lead to the same battle but for the
order of buffs: to the same units in the same cells with the same statistics. -/
theorem refresh_comm {rules : Ruleset} (hrules : rules.IsContinuous) {b b₁ : Battle}
    (hb : b.corruption? = none) {player : UInt8} {first second : Trigger}
    (hfirst : first.IsContinuous) (hsecond : second.IsContinuous)
    (hcalm : rules.BroadcastsCalmly player first second b)
    (hcalm' : rules.BroadcastsCalmly player second first b)
    (h : (rules.refresh player first second).Leads b b₁) :
  ∃ b₂, (rules.refresh player second first).Leads b b₂ ∧ b₁.Reorders b₂
  := by
  have hsound := Battle.corruption?_eq_none_iff.mp hb
  obtain ⟨m, m₁, hexpire, hannounce₁⟩ := hcalm
  obtain ⟨m', m₂, hexpire', hannounce₂⟩ := hcalm'
  obtain rfl := Except.ok.inj (hexpire.symm.trans hexpire')
  obtain ⟨lacks, m', m₁', n₁, hlacks, hexpire', hannounce', hkeep₁, hsweep₁⟩ :=
    Ruleset.refresh_leads.mp h
  obtain rfl := Except.ok.inj (hexpire.symm.trans hexpire')
  obtain rfl := hannounce₁.1.unique hannounce'
  have hm := hsound.toCoherent.changeAll (fun _ _ => BoardUnit.expireBuffs_endures) hexpire
  have hranged : ∀ u ∈ m.units, u.Ranged := by
    intro u hu
    obtain ⟨w, hw, hwu⟩ := (Battle.changeAll_eq_ok.mp hexpire).exists_unit hu
    exact BoardUnit.expireBuffs_ranged (hsound.ranged hw) hwu
  have hgranted₁ := (Ruleset.emits_calmly hrules hfirst hsecond hm).mp hannounce₁
  have hgranted₂ := (Ruleset.emits_calmly hrules hsecond hfirst hm).mp hannounce₂
  have hgranted := hgranted₁.reorders hgranted₂ (rules.continuousGrants_perm m player first second)
    (fun _ => Ruleset.continuousGrants_aura) hm hranged
  obtain ⟨n₂, hkeep₂⟩ := Battle.exists_changeAll (BoardUnit.keepLack lacks) m₂
  have hkept : n₁.Reorders n₂ := by
    have hback := (Battle.changeAll_ok hkeep₁).symm
    apply ((hback.trans hgranted).trans (Battle.changeAll_ok hkeep₂)).mono
    rintro _ - _ - ⟨v, ⟨u, rfl, huv⟩, rfl⟩
    exact huv.keepLack lacks
  obtain ⟨r, hsweep₁⟩ := hsweep₁
  obtain ⟨⟨b₂, s⟩, hsweep₂, hb₂, -⟩ :=
    sweepWith_mirrors Ruleset.emit_mirrors none 1 hkept (b₁, r) hsweep₁
  use b₂
  constructor
  · exact Ruleset.refresh_leads.mpr
      ⟨lacks, m, m₂, n₂, hlacks, hexpire, hannounce₂.1, hkeep₂, s, hsweep₂⟩
  · exact hb₂

/-- A unit whose vitality falls to zero before it rises again does not survive the refresh,
but it survives the one in the other order. -/
theorem refresh_comm_fails :
  let rules := Ruleset.ofCard (.swaying (-2) 2)
  rules.IsContinuous ∧ rules.IsUnconditional
    ∧ (Battle.vigil (.swaying (-2) 2)).corruption? = none
    ∧ ∃ b₁ b₂, (rules.refresh 0 .ruleMod .aura).Leads (.vigil (.swaying (-2) 2)) b₁
      ∧ (rules.refresh 0 .aura .ruleMod).Leads (.vigil (.swaying (-2) 2)) b₂
      ∧ b₁.units = [] ∧ (b₂.find? ⟨1⟩).map BoardUnit.vitality = some 2
  := by
  intro rules
  refine ⟨by decide, by decide, by decide, ?_⟩
  obtain ⟨b₁, hb₁, hgone⟩ := exists_leads (c := rules.refresh 0 .ruleMod .aura)
    (b := .vigil (.swaying (-2) 2)) (p := fun b₁ => b₁.units = []) (by decide +kernel)
  obtain ⟨b₂, hb₂, halive⟩ := exists_leads (c := rules.refresh 0 .aura .ruleMod)
    (b := .vigil (.swaying (-2) 2))
    (p := fun b₂ => (b₂.find? ⟨1⟩).map BoardUnit.vitality = some 2) (by decide +kernel)
  exact ⟨b₁, b₂, hb₁, hb₂, of_decide_eq_true hgone, of_decide_eq_true halive⟩

/-- A unit whose vitality sways less is the same after both orders, with its two buffs
exchanged. -/
theorem refresh_comm_vigil :
  let rules := Ruleset.ofCard (.swaying 1 (-1))
  ∃ b₁ b₂, (rules.refresh 0 .ruleMod .aura).Leads (.vigil (.swaying 1 (-1))) b₁
    ∧ (rules.refresh 0 .aura .ruleMod).Leads (.vigil (.swaying 1 (-1))) b₂ ∧ b₁.Reorders b₂
  := by
  intro rules
  have hexpire : (Battle.vigil (.swaying 1 (-1))).changeAll (fun u => u.expireBuffs .aura)
      = .ok (.vigil (.swaying 1 (-1))) := rfl
  have hcalm : rules.BroadcastsCalmly 0 .ruleMod .aura (.vigil (.swaying 1 (-1))) := by
    obtain ⟨m, hm, hlength⟩ := exists_leads
      (c := forEach (fun trigger => rules.emit { trigger, player := 0 }) [.ruleMod, .aura])
      (b := .vigil (.swaying 1 (-1))) (p := fun m => m.units.length = 1) (by decide +kernel)
    exact ⟨_, m, hexpire, hm, of_decide_eq_true hlength⟩
  have hcalm' : rules.BroadcastsCalmly 0 .aura .ruleMod (.vigil (.swaying 1 (-1))) := by
    obtain ⟨m, hm, hlength⟩ := exists_leads
      (c := forEach (fun trigger => rules.emit { trigger, player := 0 }) [.aura, .ruleMod])
      (b := .vigil (.swaying 1 (-1))) (p := fun m => m.units.length = 1) (by decide +kernel)
    exact ⟨_, m, hexpire, hm, of_decide_eq_true hlength⟩
  obtain ⟨b₁, hb₁, -⟩ := exists_leads (c := rules.refresh 0 .ruleMod .aura)
    (b := .vigil (.swaying 1 (-1))) (p := fun _ => true) (by decide +kernel)
  obtain ⟨b₂, hb₂, hreorders⟩ := refresh_comm (b := .vigil (.swaying 1 (-1))) (by decide)
    (by decide) (.inl rfl) (.inr rfl) hcalm hcalm' hb₁
  exact ⟨b₁, b₂, hb₁, hb₂, hreorders⟩

end CardBattle
