import CardBattle.Proofs.BoardUnit.Auras
import CardBattle.Proofs.BoardUnit.Treatment
import CardBattle.Proofs.Cascade.Refresh

/-!
# Units with their buffs in another order

The order of the buffs of a unit matters only when they are taken back.  Damage, healing,
further buffs and marks make of two units that differ in this order (`BoardUnit.Reorders`)
again two such units, and stop for both of them or for neither.  Units that have taken the
same auras in different orders are of this kind, if nothing has been cut off.
-/

namespace CardBattle

namespace BoardUnit

/-- Nothing differs but the order of the buffs. -/
def Reorders (u v : BoardUnit) : Prop :=
  ∃ buffs, u.buffs.Perm buffs ∧ v = { u with buffs }

variable {u v w : BoardUnit} {buffs buffs' : List Buff}

theorem Reorders.restats (h : u.Reorders v) :
  u.Restats v
  := by
  obtain ⟨buffs, -, rfl⟩ := h
  rfl

theorem Reorders.velocity (h : u.Reorders v) :
  v.velocity = u.velocity
  := by
  obtain ⟨buffs, -, rfl⟩ := h
  rfl

theorem Reorders.isAlive (h : u.Reorders v) :
  v.isAlive = u.isAlive
  := by
  obtain ⟨buffs, -, rfl⟩ := h
  rfl

theorem Reorders.takeDamage (h : u.Reorders v) (amount : Int32) :
  Matches Reorders (u.takeDamage amount) (v.takeDamage amount)
  := by
  obtain ⟨buffs, hbuffs, rfl⟩ := h
  apply matches_bind
  intro less _
  apply matches_bind
  intro vitality _
  exact matches_ok ⟨buffs, hbuffs, rfl⟩

/-- Healing gives as much to a unit with its buffs in another order. -/
theorem Reorders.heal (h : u.Reorders v) (amount : Int32) :
  Matches (fun healed healed' => healed.1.Reorders healed'.1 ∧ healed'.2 = healed.2)
    (u.heal amount) (v.heal amount)
  := by
  obtain ⟨buffs, hbuffs, rfl⟩ := h
  apply matches_bind
  intro more _
  apply matches_bind
  intro gain _
  exact matches_ok ⟨⟨buffs, hbuffs, rfl⟩, rfl⟩

theorem Reorders.modifyStat (h : u.Reorders v) (delta : Int32) (stat : Stat) :
  Matches Reorders (u.modifyStat delta stat) (v.modifyStat delta stat)
  := by
  obtain ⟨buffs, hbuffs, rfl⟩ := h
  cases stat with
  | vitality =>
    apply matches_bind
    intro top _
    apply matches_bind
    intro sum _
    apply matches_bind
    intro vitality _
    exact matches_ok ⟨buffs, hbuffs, rfl⟩
  | _ =>
    apply matches_bind
    intro x _
    exact matches_ok ⟨buffs, hbuffs, rfl⟩

/-- A further buff comes last in both orders. -/
theorem Reorders.addBuff (h : u.Reorders v) (stat : Stat) (delta : Int32) (expiry : Duration) :
  Matches Reorders (u.addBuff stat delta expiry) (v.addBuff stat delta expiry)
  := by
  apply (h.modifyStat delta stat).bind
  rintro changed _ ⟨buffs, hbuffs, rfl⟩
  cases expiry with
  | permanent => exact matches_ok ⟨buffs, hbuffs, rfl⟩
  | _ => exact matches_ok ⟨_, hbuffs.append_right _, rfl⟩

/-- What a unit lacks is kept whatever the order of the buffs is. -/
theorem Reorders.keepLack (h : u.Reorders v) (l : Lacks) :
  (u.keepLack l).Reorders (v.keepLack l)
  := by
  obtain ⟨buffs, hbuffs, rfl⟩ := h
  rw [BoardUnit.keepLack, BoardUnit.keepLack]
  dsimp only
  cases l.of? u.uid with
  | none => exact ⟨buffs, hbuffs, rfl⟩
  | some lack => exact ⟨buffs, hbuffs, rfl⟩

/-- Units that have taken the same auras differ in the order of these only. -/
theorem Gains.reorders (hv : u.Gains buffs v) (hw : u.Gains buffs' w)
    (hbuffs : buffs.Perm buffs') :
  v.Reorders w
  := by
  have hrestats : u.Restats { v with buffs := w.buffs } := by
    rw [Restats, hv.restats]
  refine ⟨w.buffs, ?_, ?_⟩
  · rw [hv.noted, hw.noted]
    exact hbuffs.append_left u.buffs
  · apply hw.restats.ext hrestats
    · intro stat
      rw [v.stat_withBuffs, hw.stat, hv.stat, Buff.total_perm hbuffs]
    · dsimp only
      rw [hw.top, hv.top, Buff.total_perm hbuffs]
    · rfl

end BoardUnit

/-! ### Treatments -/

/-- What comes of two treatments differs in the order of buffs only. -/
structure Outcome.Reorders (o o' : Outcome) : Prop where
  unit : Option.Rel BoardUnit.Reorders o.unit? o'.unit?
  remark : o'.remark? = o.remark?

namespace BoardUnit

variable {u v : BoardUnit}

/-- The same comes of tending a unit with its buffs in another order. -/
theorem Reorders.tend (h : u.Reorders v) (t : Tending) (turn : UInt32) :
  Matches Outcome.Reorders (t.treat turn u) (t.treat turn v)
  := by
  cases t with
  | heal amount =>
    apply (h.heal amount).bind
    rintro ⟨healed, gain⟩ ⟨healed', gain'⟩ ⟨hhealed, hgain⟩
    dsimp only at hgain ⊢
    rw [hgain]
    exact matches_ok ⟨.some hhealed, rfl⟩
  | mark m =>
    obtain ⟨buffs, hbuffs, rfl⟩ := h
    apply matches_ok
    rw [m.mark_buffs turn u buffs]
    refine ⟨?_, rfl⟩
    cases hw : (m.mark turn u).unit? with
    | none => exact .none
    | some w =>
      have hkept : w.buffs = u.buffs := by rw [(m.marked hw).marks.eq]
      exact .some ⟨buffs, hkept ▸ hbuffs, rfl⟩

theorem Reorders.change (h : u.Reorders v) (t : Tending) (turn : UInt32) :
  Matches Reorders (t.change turn u) (t.change turn v)
  := by
  apply (h.tend t turn).bind
  intro o o' ho
  apply matches_ok
  have hunit := ho.unit
  generalize o.unit? = w at hunit
  generalize o'.unit? = w' at hunit
  cases hunit with
  | none => exact h
  | some hw => exact hw

/-- The same comes of treating a unit with its buffs in another order. -/
theorem Reorders.treat (h : u.Reorders v) (t : Treatment) (turn : UInt32) :
  Matches Outcome.Reorders (t.treat turn u) (t.treat turn v)
  := by
  cases t with
  | tend t => exact h.tend t turn
  | damage amount =>
    apply (h.takeDamage amount).bind
    intro hurt hurt' hreorders
    exact matches_ok ⟨.some hreorders, rfl⟩
  | modify stat delta duration =>
    apply (h.addBuff stat delta duration).bind
    intro changed changed' hreorders
    exact matches_ok ⟨.some hreorders, rfl⟩

end BoardUnit

end CardBattle
