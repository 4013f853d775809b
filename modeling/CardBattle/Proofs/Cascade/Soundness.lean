import CardBattle.Proofs.Battle.Integrity
import CardBattle.Proofs.Battle.Lookup
import CardBattle.Proofs.Cascade.Departure
import CardBattle.Proofs.Cascade.Exchange
import CardBattle.Proofs.Cascade.Move
import CardBattle.Proofs.Cascade.Refresh

/-!
# Cascades keep battles sound

Every move keeps a battle coherent, and no move adds a unit to the boards.  A sweep of a
coherent battle leaves it sound, since each departure takes one unit away and as many
departures are allowed as there are units.  A script keeps a battle sound because each of its
beats does, and so do broadcasts and refreshes.
-/

namespace CardBattle

open Relation (ReflTransGen)
open Change

variable {rules : Ruleset} {emit : Event → Change} {allowed : Stat → Prop} {actor : BoardUnit}
  {event : Event}

namespace Battle

variable {b b' : Battle}

theorem Coherent.logs (hb : b.Coherent) (h : b.Logs b') :
  b'.Coherent
  := by
  rw [h.eq]
  exact hb.congr hb.active rfl rfl rfl

theorem Logs.units_eq (h : b.Logs b') :
  b'.units = b.units
  := by
  rw [h.eq]
  rfl

theorem units_shift {player : UInt8} {s t : Side} (hs : b.side? player = some s)
    (h : t.board = s.board) :
  (b.setSide player t).units = b.units
  := by
  rw [units_setSide, h, setBoard_board hs]

/-! ### Moves -/

/-- A touch keeps a battle coherent when the units that are altered endure it. -/
theorem Coherent.touch {A : BoardUnit → BoardUnit → Prop} (hb : b.Coherent)
    (hA : ∀ u v, A u v → u.Endures v) (h : Touch A b b') :
  b'.Coherent
  := by
  cases h with
  | note h => apply hb.logs h
  | alter hu h => apply hb.replace hu (hA _ _ h)
  | shift hs h => apply hb.shift hs h.board
  | swap h =>
    obtain rfl | ⟨m, -, hm, hlogs⟩ := stepSwap_leads hb h
    · apply hb
    · apply hm.logs hlogs

/-- A touch leaves as many units as there were. -/
theorem Coherent.length_touch {A : BoardUnit → BoardUnit → Prop} (hb : b.Coherent)
    (hA : ∀ u v, A u v → u.Endures v) (h : Touch A b b') :
  b'.units.length = b.units.length
  := by
  cases h with
  | note h => rw [h.units_eq]
  | alter hu h =>
    obtain ⟨l, r, hold, hnew⟩ := hb.units_replace hu (hA _ _ h).uid
    rw [hold, hnew]
    simp
  | shift hs h => rw [units_shift hs h.board]
  | swap h =>
    obtain rfl | ⟨m, hm, -, hlogs⟩ := stepSwap_leads hb h
    · rfl
    · rw [hlogs.units_eq, hm.length_units]

/-- What alterations keep, and what does not depend on cells, holds of all units after a touch
if it did so before. -/
theorem Coherent.touch_forall {A : BoardUnit → BoardUnit → Prop} {P : BoardUnit → Prop}
    (hb : b.Coherent) (hA : ∀ u v, A u v → u.Endures v) (hP : ∀ u v, A u v → P u → P v)
    (hcell : ∀ (u : BoardUnit) (cell : Cell), P u → P { u with cell })
    (hunits : ∀ u ∈ b.units, P u) (h : Touch A b b') :
  ∀ u ∈ b'.units, P u
  := by
  cases h with
  | note h =>
    rw [h.units_eq]
    apply hunits
  | alter hu h =>
    have hv := hP _ _ h (hunits _ (mem_of_find? hu))
    apply hb.forall_replace hu (hA _ _ h).uid hv hunits
  | shift hs h =>
    rw [units_shift hs h.board]
    apply hunits
  | swap h =>
    obtain rfl | ⟨m, hm, -, hlogs⟩ := stepSwap_leads hb h
    · apply hunits
    · rw [hlogs.units_eq]
      apply hm.forall_units hcell hunits

/-- No unit leaves the boards by a touch. -/
theorem Coherent.touch_has {A : BoardUnit → BoardUnit → Prop} (hb : b.Coherent)
    (hA : ∀ u v, A u v → u.Endures v) (h : Touch A b b') {uid : Uid} (huid : b.has uid) :
  b'.has uid
  := by
  have hfrom : ∀ v ∈ b'.units, ∃ u ∈ b.units, u.Persists v := by
    apply hb.touch_forall (P := fun v => ∃ u ∈ b.units, u.Persists v) hA _ _ _ h
    · rintro v w hvw ⟨u, hu, huv⟩
      exact ⟨u, hu, huv.trans (hA v w hvw).toPersists⟩
    · rintro v cell ⟨u, hu, huv⟩
      exact ⟨u, hu, huv.uid, huv.cardId, huv.owner⟩
    · intro u hu
      exact ⟨u, hu, .refl u⟩
  have hlength := (hb.perm_present (fun _ _ => BoardUnit.Persists.uid) (hb.touch hA h)
    hfrom).length_eq
  rw [List.length_map, List.length_map, hb.length_touch hA h] at hlength
  obtain ⟨u, hu⟩ := Option.isSome_iff_exists.mp huid
  rw [← find?_uid hu]
  apply List.length_filter_eq_length_iff.mp hlength u (mem_of_find? hu)

/-- Every move keeps a battle coherent. -/
theorem Coherent.move (hb : b.Coherent) (h : Move b b') :
  b'.Coherent
  := by
  cases h with
  | touch h => apply hb.touch (fun _ _ halters => halters.endures) h
  | depart h => apply (hb.departs h).2.coherent hb

theorem Coherent.moves (hb : b.Coherent) (h : Moves b b') :
  b'.Coherent
  := by
  induction h with
  | refl => apply hb
  | tail _ hmove ih => apply ih.move hmove

/-- No move adds a unit. -/
theorem Coherent.length_move (hb : b.Coherent) (h : Move b b') :
  b'.units.length ≤ b.units.length
  := by
  cases h with
  | touch h =>
    apply Nat.le_of_eq
    apply hb.length_touch (fun _ _ halters => halters.endures) h
  | depart h =>
    have hlength := (hb.departs h).2.length_units
    omega

theorem Coherent.length_moves (hb : b.Coherent) (h : Moves b b') :
  b'.units.length ≤ b.units.length
  := by
  induction h with
  | refl => apply Nat.le_refl
  | tail hmoves hmove ih =>
    have hstep := (hb.moves hmoves).length_move hmove
    omega

/-! ### Sweeps -/

/-- A sweep that allows for as many departures as there are units leaves all alive. -/
theorem Coherent.sweepUpTo_sound (hemit : ∀ event b b', (emit event).Leads b b' → Moves b b')
    (hb : b.Coherent) {source : Option Uid} {depth : UInt32} {n : Nat}
    (hn : b.units.length ≤ n) (h : (sweepUpTo emit source depth n).Leads b b') :
  b'.Sound
  := by
  induction n generalizing b with
  | zero =>
    rw [leads_done.mp h]
    constructor
    · apply hb
    · intro u hu
      rw [List.eq_nil_of_length_eq_zero (Nat.le_zero.mp hn)] at hu
      cases hu
  | succ n ih =>
    obtain ⟨hnone, rfl⟩ | ⟨owner, gone, m, m', hremove, hannounce, hrest⟩ := sweepUpTo_leads h
    · constructor
      · apply hb
      · apply hb.removeFallen?_eq_none_iff.mp hnone
    · have hdeparts := (hb.departs hremove).2
      have hm := hdeparts.coherent hb
      have hmoves := emits_moves hemit hannounce
      have hlength := hdeparts.length_units
      have hlength' := hm.length_moves hmoves
      apply ih (hm.moves hmoves) (by omega) hrest

/-- A sweep of a coherent battle leaves it sound. -/
theorem Coherent.sweepWith_sound (hemit : ∀ event b b', (emit event).Leads b b' → Moves b b')
    (hb : b.Coherent) {source : Option Uid} {depth : UInt32}
    (h : (sweepWith emit source depth).Leads b b') :
  b'.Sound
  := by
  obtain ⟨r, h⟩ := h
  apply hb.sweepUpTo_sound hemit (Nat.le_refl _) ⟨r, h⟩

/-! ### Beats -/

theorem Sound.logs (hb : b.Sound) (h : b.Logs b') :
  b'.Sound
  := by
  use hb.toCoherent.logs h
  rw [h.units_eq]
  apply hb.alive

/-- A battle stays sound when what a player has besides the board changes. -/
theorem Sound.shift (hb : b.Sound) {player : UInt8} {s t : Side}
    (hs : b.side? player = some s) (h : t.board = s.board) :
  (b.setSide player t).Sound
  := by
  constructor
  · apply hb.toCoherent.shift hs h
  · rw [units_shift hs h]
    apply hb.alive

/-- A battle stays sound when a unit is altered and lives. -/
theorem Sound.replace (hb : b.Sound) {u v : BoardUnit} (hu : b.find? u.uid = some u)
    (h : u.Endures v) (hv : v.isAlive) :
  (b.replace v).Sound
  := by
  constructor
  · apply hb.toCoherent.replace hu h
  · obtain ⟨l, r, hold, hnew⟩ := hb.units_replace hu h.uid
    have halive := hb.alive
    rw [hold] at halive
    rw [hnew]
    simp only [List.mem_append, List.mem_singleton] at halive ⊢
    rintro w ((hw | rfl) | hw)
    · apply halive w (.inl (.inl hw))
    · apply hv
    · apply halive w (.inr hw)

/-- A touch that takes no unit its life keeps a battle sound. -/
theorem Sound.touch {A : BoardUnit → BoardUnit → Prop} (hb : b.Sound)
    (hendures : ∀ u v, A u v → u.Endures v)
    (halive : ∀ u v, A u v → u.Bounded → u.isAlive → v.isAlive) (h : Touch A b b') :
  b'.Sound
  := by
  cases h with
  | note h => apply hb.logs h
  | @alter u v hu h =>
    have hunit : u ∈ b.units := mem_of_find? hu
    have hv := halive u v h (hb.fit u hunit).bounded (hb.alive u hunit)
    apply hb.replace hu (hendures u v h) hv
  | shift hs h => apply hb.shift hs h.board
  | swap h =>
    obtain rfl | ⟨m, hm, hcoherent, hlogs⟩ := stepSwap_leads hb.toCoherent h
    · apply hb
    · have hsound : m.Sound := by
        use hcoherent
        apply hm.forall_units (fun _ _ => id) hb.alive
      apply hsound.logs hlogs

/-- Touches that take no unit its life keep a battle sound. -/
theorem Sound.touches {A : BoardUnit → BoardUnit → Prop} (hb : b.Sound)
    (hendures : ∀ u v, A u v → u.Endures v)
    (halive : ∀ u v, A u v → u.Bounded → u.isAlive → v.isAlive) (h : Touches A b b') :
  b'.Sound
  := by
  induction h with
  | refl => apply hb
  | tail _ htouch ih => apply ih.touch hendures halive htouch

theorem Coherent.touches {A : BoardUnit → BoardUnit → Prop} (hb : b.Coherent)
    (hA : ∀ u v, A u v → u.Endures v) (h : Touches A b b') :
  b'.Coherent
  := by
  induction h with
  | refl => apply hb
  | tail _ htouch ih => apply ih.touch hA htouch

theorem Coherent.touches_has {A : BoardUnit → BoardUnit → Prop} (hb : b.Coherent)
    (hA : ∀ u v, A u v → u.Endures v) (h : Touches A b b') {uid : Uid} (huid : b.has uid) :
  b'.has uid
  := by
  induction h with
  | refl => apply huid
  | tail htouches htouch ih => apply (hb.touches hA htouches).touch_has hA htouch ih

/-- What alterations keep, and what does not depend on cells, holds of all units after touches
if it did so before. -/
theorem Coherent.touches_forall {A : BoardUnit → BoardUnit → Prop} {P : BoardUnit → Prop}
    (hb : b.Coherent) (hA : ∀ u v, A u v → u.Endures v) (hP : ∀ u v, A u v → P u → P v)
    (hcell : ∀ (u : BoardUnit) (cell : Cell), P u → P { u with cell })
    (hunits : ∀ u ∈ b.units, P u) (h : Touches A b b') :
  ∀ u ∈ b'.units, P u
  := by
  induction h with
  | refl => apply hunits
  | tail htouches htouch ih =>
    apply (hb.touches hA htouches).touch_forall hA hP hcell ih htouch

/-- Every beat keeps a battle sound. -/
theorem Sound.beat (hemit : ∀ event b b', (emit event).Leads b b' → Moves b b')
    (hb : b.Sound) (h : Beat rules emit allowed actor event b b') :
  b'.Sound
  := by
  cases h with
  | touch h =>
    apply hb.touch _ _ h
    · intro u v hspares
      apply hspares.alters.endures
    · intro u v hspares
      apply hspares.alive
  | wound hu h hm hsweep =>
    obtain ⟨r, hsweep⟩ := hsweep
    obtain ⟨depth, -, hsweep⟩ := bind_eq_ok.mp hsweep
    have hcoherent := (hb.toCoherent.replace hu h.endures).logs hm
    apply hcoherent.sweepWith_sound hemit ⟨r, hsweep⟩

/-- A script keeps a battle sound. -/
theorem Sound.runScript (hemit : ∀ event b b', (emit event).Leads b b' → Moves b b')
    (hb : b.Sound) {script : List Step}
    (h : (runScript rules emit actor event script).Leads b b') :
  b'.Sound
  := by
  have hbeats := runScript_beats script (scriptModifiesOnly_any script) h
  clear h
  induction hbeats with
  | refl => apply hb
  | tail _ hbeat ih => apply ih.beat hemit hbeat

end Battle

/-! ### Events, scripts, sweeps and refreshes -/

namespace Ruleset

variable {b b' : Battle}

/-- What comes of an event keeps a battle sound. -/
theorem emit_sound (hb : b.Sound) (h : (rules.emit event).Leads b b') :
  b'.Sound
  := by
  rw [Ruleset.emit] at h
  cases hn : rules.settings.maxTriggerDepth.toNat + 1 - event.depth.toNat with
  | zero =>
    rw [hn] at h
    rw [leads_done.mp h]
    apply hb
  | succ n =>
    rw [hn] at h
    apply broadcast_keeps _ hb h
    intro cardId block _ actor c c' hc hscript
    apply hc.runScript _ hscript
    intro inner d d' hinner
    apply emitWithin_moves hinner

/-- What comes of a script keeps a battle sound. -/
theorem run_sound (hb : b.Sound) {script : List Step}
    (h : (rules.run actor event script).Leads b b') :
  b'.Sound
  := hb.runScript rules.emit_moves h

/-- What comes of an activation keeps a battle sound. -/
theorem runActivation_sound (hb : b.Sound) {uid : Uid} {ability : Ability}
    (h : (rules.runActivation uid ability event).Leads b b') :
  b'.Sound
  := by
  apply runBlocks_keeps _ hb h
  intro block _ actor c c' hc hscript
  apply hc.runScript rules.emit_moves hscript

/-- A sweep of a coherent battle leaves it sound. -/
theorem sweep_sound (hb : b.Coherent) {source : Option Uid} {depth : UInt32}
    (h : (rules.sweep source depth).Leads b b') :
  b'.Sound
  := hb.sweepWith_sound rules.emit_moves h

/-- In the course of a refresh a coherent battle stays coherent. -/
theorem refresh_coherent (hb : b.Coherent) {player : UInt8} {first second : Trigger}
    (h : (rules.refresh player first second).Leads b b') :
  ∃ lacks m₁ m₂ m₃,
    (b.changeAll (fun u => u.expireBuffs .aura) = .ok m₁ ∧ m₁.Coherent)
    ∧ ((forEach (fun trigger => rules.emit { trigger, player }) [first, second]).Leads m₁ m₂
      ∧ Moves m₁ m₂ ∧ m₂.Coherent)
    ∧ (m₂.changeAll (fun u => .ok (u.keepLack lacks)) = .ok m₃ ∧ m₃.Coherent)
    ∧ (rules.sweep none 1).Leads m₃ b'
  := by
  obtain ⟨lacks, m₁, m₂, m₃, -, hexpire, hannounce, hkeep, hsweep⟩ := refresh_leads.mp h
  have hm₁ : m₁.Coherent := by
    apply hb.changeAll _ hexpire
    intro u v hv
    apply BoardUnit.expireBuffs_endures hv
  have hmoves := emits_moves rules.emit_moves hannounce
  have hm₃ : m₃.Coherent := by
    apply (hm₁.moves hmoves).changeAll _ hkeep
    intro u v hv
    obtain rfl := Except.ok.inj hv
    apply BoardUnit.keepLack_endures
  exact ⟨lacks, m₁, m₂, m₃, ⟨hexpire, hm₁⟩, ⟨hannounce, hmoves, hm₁.moves hmoves⟩,
    ⟨hkeep, hm₃⟩, hsweep⟩

/-- A refresh of a coherent battle leaves it sound. -/
theorem refresh_sound (hb : b.Coherent) {player : UInt8} {first second : Trigger}
    (h : (rules.refresh player first second).Leads b b') :
  b'.Sound
  := by
  obtain ⟨lacks, m₁, m₂, m₃, -, -, ⟨-, hm₃⟩, hsweep⟩ := refresh_coherent hb h
  apply sweep_sound hm₃ hsweep

end Ruleset

end CardBattle
