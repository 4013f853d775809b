import CardBattle.Proofs.Action.Deeds
import CardBattle.Proofs.Cascade.Soundness

/-!
# Actions keep battles sound

Every action that is carried out leaves the battle sound.  The unit that a card puts on a
board may have no vitality, and the battle is merely coherent then, as it is when buffs end
or a unit has been struck; but each action ends with a sweep after the last change that can
take a unit its life.
-/

namespace CardBattle

open Relation (ReflTransGen)
open Change

namespace UidCounter

/-- The uids issued so far are issued after one more was. -/
theorem hasIssued_next {counter : UidCounter} {n : UInt32} (h : Word.next counter.next = .ok n)
    {uid : Uid} (huid : counter.hasIssued uid ∨ uid = ⟨counter.next⟩) :
  (UidCounter.mk n).hasIssued uid
  := by
  have hnext := Word.toNat_of_next h
  simp only [hasIssued, decide_eq_true_eq, UInt32.lt_iff_toNat_lt] at huid ⊢
  rcases huid with huid | rfl
  · omega
  · dsimp only
    omega

/-- The next uid has not been issued. -/
theorem ne_of_hasIssued {counter : UidCounter} {uid : Uid} (h : counter.hasIssued uid) :
  uid ≠ ⟨counter.next⟩
  := by
  rintro rfl
  simp [hasIssued] at h

end UidCounter

theorem opponentOf_le (player : UInt8) :
  opponentOf player ≤ 1
  := by
  rw [opponentOf]
  split <;> decide

theorem opponentOf_ne (player : UInt8) :
  opponentOf player ≠ player
  := by
  rw [opponentOf]
  split
  · next hzero =>
    rw [hzero]
    decide
  · next hother => exact Ne.symm hother

namespace Battle

variable {b b' : Battle} {player : UInt8} {cell : Cell}

/-- A battle stays coherent when the turn passes. -/
theorem Coherent.passesTurn (hb : b.Coherent) (h : b.PassesTurn b') :
  b'.Coherent
  := by
  apply hb.congr _ h.uids
  · rw [h.side0]
  · rw [h.side1]
  · rw [h.activePlayer]
    apply opponentOf_le

/-- A battle stays coherent when a unit is deployed. -/
theorem Coherent.deploys (hb : b.Coherent) {handIndex : UInt64} {card : Card}
    (h : b.Deploys player handIndex cell card b') :
  b'.Coherent
  := by
  obtain ⟨next, side, i, board, line, hnext, hside, -, hcell, hturns, rfl⟩ := h
  have hissued : ({ b with uids := ⟨next⟩ } : Battle).Coherent := by
    use hb.active, hb.arranged0, hb.arranged1, hb.distinct
    intro u hu
    use UidCounter.hasIssued_next hnext (.inl (hb.fit u hu).issued), (hb.fit u hu).bounded
  have hput : (({ b with uids := ⟨next⟩ } : Battle).setBoard player board).Coherent := by
    apply hissued.put hside hturns hcell rfl
    · use UidCounter.hasIssued_next hnext (.inr rfl)
      intro _
      apply Int32.le_refl
    · intro v hv
      apply UidCounter.ne_of_hasIssued (hb.fit v hv).issued
  apply Coherent.logs _ (record_logs _ line)
  apply Coherent.setSide
  apply hput

/-- The units are those from before and the one that is deployed. -/
theorem Deploys.units_perm {handIndex : UInt64} {card : Card}
    (h : b.Deploys player handIndex cell card b') :
  b'.units.Perm (b.units ++ [.ofCard ⟨b.uids.next⟩ player cell card])
  := by
  obtain ⟨next, side, i, board, line, -, hside, -, -, hturns, rfl⟩ := h
  have hside : ({ b with uids := ⟨next⟩ } : Battle).side? player = some side := hside
  obtain ⟨l, r, hold, hnew⟩ := units_turns hside hturns
  have hold : b.units = _ := hold
  change (Battle.units (setSide _ player _)).Perm _
  rw [units_setSide, hnew, hold]
  simp only [Option.toList_none, Option.toList_some, List.append_nil, List.append_assoc]
  apply List.Perm.append_left
  apply List.perm_append_comm

/-- The uids issued so far are issued after a unit was deployed. -/
theorem Deploys.hasIssued {handIndex : UInt64} {card : Card} {uid : Uid}
    (h : b.Deploys player handIndex cell card b') (huid : b.uids.hasIssued uid) :
  b'.uids.hasIssued uid
  := by
  obtain ⟨next, side, i, board, line, hnext, hside, -, -, -, rfl⟩ := h
  change (Battle.uids (setSide _ player _)).hasIssued uid
  rw [setSide_uids]
  apply UidCounter.hasIssued_next hnext (.inl huid)

/-- In a coherent battle a unit that is relocated leaves the units the same wherever they
stand. -/
theorem Coherent.relocates (hb : b.Coherent) (h : b.Relocates player cell b') :
  ∃ m, b.Rearranges m ∧ m.Coherent ∧ m.Logs b'
  := by
  obtain ⟨side, u, i, board, j, board', line, hside, htaken, hcell, hput, rfl⟩ := h
  use b.setBoard player board'
  have hu : u ∈ side.board.units := htaken.perm_taken.symm.subset (by simp)
  refine ⟨⟨player, side, board', hside, ?_, rfl⟩, ?_, ?_⟩
  · have hold := htaken.perm_taken.map BoardUnit.anywhere
    have hnew := hput.perm_put.map BoardUnit.anywhere
    apply hnew.trans
    apply hold.symm
  · rw [← setBoard_setBoard b player board board']
    apply (hb.take hside htaken).put (side?_setBoard hside board) hput hcell
    · apply (hb.arranged hside).owner hu
    · rw [setBoard_uids]
      apply (hb.fit u (mem_units_of_side hside hu)).elsewhere
    · apply hb.fresh_of_taken hside htaken
  · rw [setSide_board hside]
    apply record_logs

/-- A strike keeps a battle coherent. -/
theorem Coherent.strike (hb : b.Coherent) {attacker target : BoardUnit} {amount : Int32}
    (htarget : b.find? target.uid = some target)
    (h : Ruleset.strike b attacker target = .ok (b', amount)) :
  b'.Coherent
  := by
  apply hb.touches _ (Ruleset.strike_touches htarget h)
  intro u v hengages
  apply hengages.endures

/-- A battle stays coherent when a player pays for an ability with cards of the hand. -/
theorem Coherent.pays (hb : b.Coherent) {side : Side} (hside : b.side? player = some side)
    (n : Nat) (line : String) (lineOf : String → String) :
  ((side.discardUpTo n).1.foldl (fun b card => b.record (lineOf card))
    ((b.setSide player (side.discardUpTo n).2).record line)).Coherent
  := hb.touches (fun _ _ => False.elim) (Ruleset.pays_touches hside n line lineOf)

/-- A battle stays sound when the use of an ability is noted. -/
theorem Sound.uses (hb : b.Sound) {uid : Uid} {slot : UInt8} {ability : Ability}
    (h : b.Uses player uid slot ability b') :
  b'.Sound
  := by
  obtain ⟨side, hside, hexerts⟩ := h.exerts
  have hmarked := hb.shift (t := side.markUsed ⟨uid, slot⟩) hside rfl
  apply hmarked.touches _ _ hexerts
  · intro u v hexerts
    apply hexerts.endures
  · intro u v hexerts _ halive
    rw [hexerts]
    apply halive

end Battle

namespace Ruleset

variable {rules : Ruleset} {b b' : Battle} {player : UInt8}

/-- Broadcasting an event and refreshing the auras leaves a coherent battle sound. -/
theorem emitAndRefresh_sound (hb : b.Coherent) {event : Event} {first second : Trigger}
    (h : (rules.emitAndRefresh event first second).Leads b b') :
  b'.Sound
  := by
  obtain ⟨m, hemit, hrefresh⟩ := leads_andThen.mp h
  apply refresh_sound _ hrefresh
  apply hb.moves (rules.emit_moves _ _ _ hemit)

theorem attackUnit_sound (hb : b.Sound) {attacker target : Uid}
    (h : (rules.attackUnit player attacker target).Leads b b') :
  b'.Sound
  := by
  obtain ⟨m, hdeclare, hrest⟩ := attackUnit_leads h
  have hb' : ({ b with firstAttacker := b.firstAttacker <|> some attacker } : Battle).Sound :=
    ⟨hb.toCoherent.congr hb.active rfl rfl rfl, hb.alive⟩
  have hm := emit_sound hb' hdeclare
  obtain ⟨-, hlogs⟩ | ⟨att, tgt, m₁, amount, line, m₂, -, -, htgt, hstrike, hhit, hsweep⟩ := hrest
  · apply hm.logs hlogs
  · apply sweep_sound _ hsweep
    apply Battle.Coherent.moves _ (rules.emit_moves _ _ _ hhit)
    apply (hm.toCoherent.strike htgt hstrike).logs (Battle.record_logs _ _)

/-- In the course of the end of a turn a coherent battle stays coherent. -/
theorem endTurn_coherent (hb : b.Coherent) (h : rules.endTurn.Leads b b') :
  ∃ m₁ m₂ m₃,
    (({ b with side0.used := ∅, side1.used := ∅ }).changeAll BoardUnit.endCycle = .ok m₁
      ∧ m₁.Coherent)
    ∧ ((rules.sweep none 1).Leads m₁ m₂ ∧ m₂.Coherent)
    ∧ (m₂.PassesTurn m₃ ∧ m₃.Coherent)
    ∧ (rules.emitAndRefresh { trigger := .turnStartSelf, player := m₃.activePlayer }
      .ruleMod .aura).Leads m₃ b'
  := by
  obtain ⟨m₁, m₂, m₃, hchange, hsweep, hpasses, hrest⟩ := endTurn_leads h
  have hb' : ({ b with side0.used := ∅, side1.used := ∅ } : Battle).Coherent :=
    hb.congr hb.active rfl rfl rfl
  have hm₁ := hb'.changeAll (fun u v => BoardUnit.endCycle_endures) hchange
  have hm₂ := (sweep_sound hm₁ hsweep).toCoherent
  exact ⟨m₁, m₂, m₃, ⟨hchange, hm₁⟩, ⟨hsweep, hm₂⟩, ⟨hpasses, hm₂.passesTurn hpasses⟩, hrest⟩

theorem endTurn_sound (hb : b.Coherent) (h : rules.endTurn.Leads b b') :
  b'.Sound
  := by
  obtain ⟨m₁, m₂, m₃, -, -, ⟨-, hm₃⟩, hrest⟩ := endTurn_coherent hb h
  apply emitAndRefresh_sound hm₃ hrest

/-- An action that has been checked leaves a sound battle sound. -/
theorem carryOut_sound (hb : b.Sound) {permit : Permit} {r : Report}
    (h : rules.carryOut permit b = .ok (b', r)) :
  b'.Sound
  := by
  cases permit with
  | playUnit player handIndex cell card =>
    obtain ⟨m, hdeploys, hrest⟩ := playUnit_ok h
    apply emitAndRefresh_sound _ hrest
    apply hb.toCoherent.deploys hdeploys
  | move player uid cell =>
    obtain ⟨m, hrelocates, hrest⟩ := moveUnit_ok h
    obtain ⟨m', -, hcoherent, hlogs⟩ := hb.toCoherent.relocates hrelocates
    apply emitAndRefresh_sound _ hrest
    apply hcoherent.logs hlogs
  | attack player attacker target => apply attackUnit_sound hb ⟨r, lift_fault_eq_ok.mp h⟩
  | activate player uid slot target ability =>
    obtain ⟨m, m', hpaid, hrun, huses⟩ := activate_ok h
    apply Battle.Sound.uses _ huses
    apply runActivation_sound _ hrun
    apply hb.touches _ _ hpaid
    · intro u v hspares
      apply hspares.alters.endures
    · intro u v hspares
      apply hspares.alive
  | endTurn => apply endTurn_sound hb.toCoherent ⟨r, lift_fault_eq_ok.mp h⟩

/-- An action that is accepted leaves a battle that is sound. -/
theorem resolve_sound {action : Action} {resolution : Resolution}
    (h : rules.resolve b action = .ok resolution) :
  resolution.battle.Sound
  := by
  obtain ⟨permit, report, hpermit, hcarry⟩ := resolve_ok h
  apply carryOut_sound _ hcarry
  apply Battle.corruption?_eq_none_iff.mp (permit_ok hpermit).1

end Ruleset

end CardBattle
