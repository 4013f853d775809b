import CardBattle.Proofs.BoardUnit.Alteration

/-!
# Statistics that stay as they are

As long as only the vitality of a unit is buffed, the end of buffs changes no other
statistic of it, and neither does damage, healing or a mark.  Only a change of one of the
other statistics does (`addBuff_permanent_ok`).
-/

namespace CardBattle

namespace BoardUnit

/-- Only the vitality of the unit is buffed. -/
def Plain (u : BoardUnit) : Prop :=
  ∀ buff ∈ u.buffs, buff.stat = .vitality

/-- The unit keeps its uid, card and owner; as long as only its vitality is buffed, it keeps
all other statistics. -/
structure Steady (u v : BoardUnit) : Prop extends Persists u v where
  plain : u.Plain → v.Plain
  stat_eq : u.Plain → ∀ stat, stat ≠ .vitality → v.stat stat = u.stat stat

variable {u v w : BoardUnit}

theorem Steady.refl (u : BoardUnit) :
  u.Steady u
  := ⟨.refl u, id, fun _ _ _ => rfl⟩

theorem Steady.trans (huv : u.Steady v) (hvw : v.Steady w) :
  u.Steady w
  := by
  use huv.toPersists.trans hvw.toPersists
  · intro hu
    apply hvw.plain (huv.plain hu)
  · intro hu stat hstat
    rw [hvw.stat_eq (huv.plain hu) stat hstat, huv.stat_eq hu stat hstat]

/-- A unit is steady when it keeps its statistics but for vitality, and no buff comes to
it but one of vitality. -/
theorem steady_of_eq (hpersists : u.Persists v) (hplain : u.Plain → v.Plain)
    (himpact : v.impact = u.impact) (hdefence : v.defence = u.defence)
    (hvelocity : v.velocity = u.velocity) :
  u.Steady v
  := by
  use hpersists, hplain
  intro _ stat hstat
  cases stat with
  | vitality => exact absurd rfl hstat
  | impact => exact himpact
  | defence => exact hdefence
  | velocity => exact hvelocity

/-- A unit is steady in another cell. -/
theorem steady_elsewhere (u : BoardUnit) (cell : Cell) :
  u.Steady { u with cell }
  := steady_of_eq ⟨rfl, rfl, rfl⟩ id rfl rfl rfl

/-! ### Alterations -/

theorem Marks.steady (h : u.Marks v) :
  u.Steady v
  := by
  rw [h.eq]
  exact steady_of_eq ⟨rfl, rfl, rfl⟩ id rfl rfl rfl

theorem Exerts.steady (h : u.Exerts v) :
  u.Steady v
  := by
  rw [h]
  exact steady_of_eq ⟨rfl, rfl, rfl⟩ id rfl rfl rfl

theorem takeDamage_steady {amount : Int32} (h : u.takeDamage amount = .ok v) :
  u.Steady v
  := by
  rw [(takeDamage_ok h).1]
  exact steady_of_eq ⟨rfl, rfl, rfl⟩ id rfl rfl rfl

theorem heal_steady {amount gain : Int32} (h : u.heal amount = .ok (v, gain)) :
  u.Steady v
  := by
  rw [(heal_ok h).1]
  exact steady_of_eq ⟨rfl, rfl, rfl⟩ id rfl rfl rfl

/-- A buff of vitality leaves the other statistics alone. -/
theorem addBuff_vitality_steady {delta : Int32} {duration : Duration}
    (h : u.addBuff .vitality delta duration = .ok v) :
  u.Steady v
  := by
  obtain ⟨w, hw, rfl⟩ := addBuff_ok h
  rw [(modifyStat_vitality_ok hw).1]
  refine steady_of_eq ⟨rfl, rfl, rfl⟩ ?_ rfl rfl rfl
  intro hu buff hbuff
  dsimp only at hbuff
  split at hbuff
  · apply hu buff hbuff
  · rcases List.mem_append.mp hbuff with hbuff | hbuff
    · apply hu buff hbuff
    · obtain rfl := List.mem_singleton.mp hbuff
      rfl

/-- An alteration that changes no statistic but vitality is steady. -/
theorem Alters.steady (h : u.Alters (· = .vitality) v) :
  u.Steady v
  := by
  cases h with
  | damage h => apply takeDamage_steady h
  | heal h => apply heal_steady h
  | modify hstat h =>
    subst hstat
    apply addBuff_vitality_steady h
  | mark h => apply h.steady

/-! ### The end of buffs -/

theorem undoBuff_steady {buff : Buff} (hbuff : buff.stat = .vitality)
    (h : u.undoBuff buff = .ok v) :
  u.Steady v
  := by
  obtain ⟨-, vitality, top, h⟩ | ⟨hstat, -⟩ := undoBuff_ok h
  · rw [(withVitality_ok h).1]
    exact steady_of_eq ⟨rfl, rfl, rfl⟩ id rfl rfl rfl
  · exact absurd hbuff hstat

/-- The end of buffs leaves a unit steady: if only its vitality is buffed, then only buffs
of vitality are taken back. -/
theorem expireBuffs_steady {expiry : Duration} (h : u.expireBuffs expiry = .ok v) :
  u.Steady v
  := by
  have hsteady : u.Plain → u.Steady v := by
    intro hu
    apply foldlM_keeps (P := u.Steady) _ _ h
    · intro buff hbuff w w' hw hw'
      apply hw.trans
      apply undoBuff_steady (hu buff (List.mem_filter.mp hbuff).1) hw'
    · refine steady_of_eq ⟨rfl, rfl, rfl⟩ ?_ rfl rfl rfl
      intro _ buff hbuff
      apply hu buff (List.mem_filter.mp hbuff).1
  use (expireBuffs_restats h).persists
  · intro hu
    apply (hsteady hu).plain hu
  · intro hu
    apply (hsteady hu).stat_eq hu

theorem endCycle_steady (h : u.endCycle = .ok v) :
  u.Steady v
  := by
  obtain ⟨w, hw, h⟩ := bind_eq_ok.mp h
  obtain rfl := pure_eq_ok.mp h
  have hended : u.Steady w := by
    apply Steady.trans _ (expireBuffs_steady hw)
    exact steady_of_eq ⟨rfl, rfl, rfl⟩ id rfl rfl rfl
  apply hended.trans
  exact steady_of_eq ⟨rfl, rfl, rfl⟩ id rfl rfl rfl

/-! ### Changes for good -/

/-- A change for good of a statistic other than vitality adds to that statistic and leaves
the others, and the buffs, alone. -/
theorem addBuff_permanent_ok {stat : Stat} {delta : Int32} (hstat : stat ≠ .vitality)
    (h : u.addBuff stat delta .permanent = .ok v) :
  u.Persists v ∧ v.buffs = u.buffs
    ∧ ∀ other, (v.stat other).toInt
      = (u.stat other).toInt + if other = stat then delta.toInt else 0
  := by
  obtain ⟨w, hw, rfl⟩ := addBuff_ok h
  cases stat with
  | vitality => exact absurd rfl hstat
  | impact =>
    obtain ⟨x, hx, hw⟩ := bind_eq_ok.mp hw
    obtain rfl := pure_eq_ok.mp hw
    use ⟨rfl, rfl, rfl⟩, rfl
    intro other
    cases other with
    | impact => exact Word.add_eq_ok_iff.mp hx
    | _ => exact (Int.add_zero _).symm
  | defence =>
    obtain ⟨x, hx, hw⟩ := bind_eq_ok.mp hw
    obtain rfl := pure_eq_ok.mp hw
    use ⟨rfl, rfl, rfl⟩, rfl
    intro other
    cases other with
    | defence => exact Word.add_eq_ok_iff.mp hx
    | _ => exact (Int.add_zero _).symm
  | velocity =>
    obtain ⟨x, hx, hw⟩ := bind_eq_ok.mp hw
    obtain rfl := pure_eq_ok.mp hw
    use ⟨rfl, rfl, rfl⟩, rfl
    intro other
    cases other with
    | velocity => exact Word.add_eq_ok_iff.mp hx
    | _ => exact (Int.add_zero _).symm

end BoardUnit

end CardBattle
