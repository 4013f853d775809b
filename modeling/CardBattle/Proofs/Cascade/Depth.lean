import CardBattle.Proofs.Cascade.Agreement
import CardBattle.Proofs.Cascade.Soundness

/-!
# How deep events are nested

Every event nested in another follows on a departure, so that the depth of an event and the
units that are left never come to more than the units at the beginning (`Battle.Shallow`).
Whatever would become of an event nested deeper than units have departed, it makes no
difference (`emitCounted_eq`), and neither does a limit on the depth that is not less than
the number of units (`emitWithin_agree`).
-/

namespace CardBattle

open Relation (ReflTransGen)
open Change

namespace Battle

variable {b b' : Battle} {total : Nat} {depth : UInt32}

/-- The battle is coherent, and for every event that one of the given depth is nested in, one
of so many units has departed. -/
structure Shallow (total : Nat) (depth : UInt32) (b : Battle) : Prop where
  coherent : b.Coherent
  departed : depth.toNat + b.units.length ≤ total

/-- Before any departure a battle is shallow for events that are not nested. -/
theorem Coherent.shallow_units (hb : b.Coherent) :
  b.Shallow b.units.length 0
  := by
  use hb
  simp

/-- There are at most twelve units. -/
theorem Coherent.shallow (hb : b.Coherent) :
  b.Shallow 12 0
  := by
  use hb
  rw [UInt32.toNat_zero, Nat.zero_add]
  apply b.length_units_le

theorem Shallow.moves (hb : b.Shallow total depth) (h : Moves b b') :
  b'.Shallow total depth
  := by
  use hb.coherent.moves h
  have hlength := hb.coherent.length_moves h
  have hdeparted := hb.departed
  omega

/-- When a unit departs, the battle becomes shallow for events that are nested once more. -/
theorem Coherent.shallow_departs (hb : b.Coherent)
    (hdepth : depth.toNat + b.units.length ≤ total + 1) {owner : UInt8} {gone : BoardUnit}
    (h : b.removeFallen? = some (owner, gone, b')) :
  b'.Shallow total depth
  := by
  have hdeparts := (hb.departs h).2
  use hdeparts.coherent hb
  have hlength := hdeparts.length_units
  omega

end Battle

/-- The events that answers to an event cause are nested once more. -/
theorem Event.innerDepth_ok {event : Event} {depth : UInt32} (h : event.innerDepth = .ok depth) :
  depth.toNat = event.depth.toNat + 1
  := by
  rw [innerDepth, Word.next] at h
  split at h
  · next hdepth =>
    obtain rfl := Except.ok.inj h
    rw [UInt32.toNat_add]
    apply Nat.mod_eq_of_lt hdepth
  · cases h

/-- In a shallow battle the events that answers to an event cause can be counted. -/
theorem Event.innerDepth_of_shallow {event : Event} {b : Battle}
    (hb : b.Shallow 12 event.depth) :
  ∃ depth, event.innerDepth = .ok depth ∧ depth.toNat = event.depth.toNat + 1
  := by
  have hdepth : event.depth.toNat + 1 < UInt32.size := by
    have hdeparted := hb.departed
    rw [UInt32.size]
    omega
  have hinner : event.innerDepth = .ok (event.depth + 1) := by
    rw [innerDepth, Word.next, if_pos hdepth]
    rfl
  use event.depth + 1, hinner, innerDepth_ok hinner

/-! ### Broadcasts that agree -/

section

variable {rules : Ruleset} {emit emit' : Event → Change} {event : Event} {total : Nat}
  {b : Battle} (hmoves : ∀ event b b', (emit event).Leads b b' → Moves b b')

include hmoves

/-- Sweeps agree if the broadcasts of events do for which the battle is shallow after a
departure. -/
theorem sweepWith_agree (total : Nat) {depth : UInt32} (hb : b.Coherent)
    (hdepth : depth.toNat + b.units.length ≤ total + 1)
    (hagree : ∀ event b, event.depth = depth → b.Shallow total event.depth →
      emit' event b = emit event b) (source : Option Uid) :
  sweepWith emit' source depth b = sweepWith emit source depth b
  := by
  apply sweepUpTo_agree (P := Battle.Shallow total depth) hmoves (fun _ _ hc => hc.moves)
  · intro owner gone m hremove
    apply hb.shallow_departs hdepth hremove
  · rintro inner c rfl hc
    apply hagree inner c rfl hc

variable (hagree : ∀ inner c, inner.depth.toNat = event.depth.toNat + 1 →
  c.Shallow total inner.depth → emit' inner c = emit inner c)

include hagree

/-- The sweeps after steps on an event agree if the broadcasts of events nested once more
do. -/
theorem sweepAfter_agree (actor : BoardUnit) (hb : b.Shallow total event.depth) :
  sweepAfter emit' actor event b = sweepAfter emit actor event b
  := by
  apply bind_congr_ok
  intro depth hinner
  have hdepth := Event.innerDepth_ok hinner
  have hdeparted := hb.departed
  apply sweepWith_agree hmoves total hb.coherent (by omega)
  rintro inner c rfl hc
  apply hagree inner c hdepth hc

/-- Broadcasts of an event agree if those of events nested once more do. -/
theorem broadcast_shallow_agree (hb : b.Shallow total event.depth) :
  broadcast rules emit' event b = broadcast rules emit event b
  := by
  apply broadcast_agree hmoves (fun _ _ hc => hc.moves) _ hb
  intro actor c hc
  apply sweepAfter_agree hmoves hagree actor hc

end

namespace Ruleset

variable {rules : Ruleset} {event : Event} {total n m : Nat} {b : Battle}

/-- It makes no difference how deep events may be nested as long as that is deeper than units
can depart. -/
theorem emitWithin_agree (hb : b.Shallow total event.depth) (hn : total < event.depth.toNat + n)
    (hm : total < event.depth.toNat + m) :
  rules.emitWithin n event b = rules.emitWithin m event b
  := by
  have hdeparted := hb.departed
  induction m generalizing n event b with
  | zero => omega
  | succ m ih =>
    cases n with
    | zero => omega
    | succ n =>
      apply broadcast_shallow_agree _ _ hb
      · intro inner c c'
        apply emitWithin_moves
      · intro inner c hdepth hc
        apply ih hc (by omega) (by omega) hc.departed

/-- Broadcasts an event as `emitWithin` does, but only if it is not nested deeper than units
of so many have departed; `otherwise` stands for what becomes of other events. -/
def emitCountedWithin (rules : Ruleset) (total : Nat) (otherwise : Event → Change) :
    Nat → Event → Change
  | 0, _ => Change.done
  | n + 1, event => fun b =>
      if event.depth.toNat + b.units.length ≤ total then
        broadcast rules (rules.emitCountedWithin total otherwise n) event b
      else otherwise event b

/-- Broadcasts an event as `emit` does, but only if it is not nested deeper than units of so
many have departed. -/
def emitCounted (rules : Ruleset) (total : Nat) (otherwise : Event → Change) (event : Event) :
    Change :=
  rules.emitCountedWithin total otherwise
    (rules.settings.maxTriggerDepth.toNat + 1 - event.depth.toNat) event

theorem emitCountedWithin_eq (otherwise : Event → Change) (hb : b.Shallow total event.depth) :
  rules.emitCountedWithin total otherwise n event b = rules.emitWithin n event b
  := by
  induction n generalizing event b with
  | zero => rfl
  | succ n ih =>
    rw [emitCountedWithin]
    dsimp only
    rw [if_pos hb.departed]
    apply broadcast_shallow_agree _ _ hb
    · intro inner c c'
      apply emitWithin_moves
    · intro inner c _ hc
      apply ih hc

/-- No event is nested deeper than units have departed. -/
theorem emitCounted_eq (otherwise : Event → Change) (event : Event) (b : Battle)
    (hb : b.Shallow total event.depth) :
  rules.emitCounted total otherwise event b = rules.emit event b
  := emitCountedWithin_eq otherwise hb

/-- No event that a sweep causes is nested deeper than units have departed. -/
theorem sweep_counted (otherwise : Event → Change) (source : Option Uid) (hb : b.Coherent) :
  sweepWith (rules.emitCounted b.units.length otherwise) source 1 b = rules.sweep source 1 b
  := by
  apply sweepWith_agree rules.emit_moves b.units.length hb
  · rw [UInt32.toNat_one]
    omega
  · intro event c _ hc
    apply emitCounted_eq otherwise event c hc

end Ruleset

section

variable {rules : Ruleset} {emit : Event → Change} {event : Event} {total : Nat} {b : Battle}

/-- Activations agree if the broadcasts do for which the battle is shallow. -/
theorem runActivation_agree
    (hagree : ∀ inner c, c.Shallow total inner.depth → emit inner c = rules.emit inner c)
    (uid : Uid) (ability : Ability) (hb : b.Shallow total event.depth) :
  forEach (runBlock rules emit event uid none) (ability.blocksFor .activate) b
    = rules.runActivation uid ability event b
  := by
  apply runBlocks_agree rules.emit_moves (fun _ _ hc => hc.moves) _ _ _ hb
  · intro actor c hc
    apply sweepAfter_agree rules.emit_moves (fun inner m _ => hagree inner m) actor hc
  · intro block _
    apply Event.Alike.refl
  · intro block _
    apply Event.Alike.refl

end

/-! ### Rules that differ in their settings -/

section

variable (rules : Ruleset) (settings : Settings) (emit : Event → Change) (actor : BoardUnit)
  (event : Event) (b : Battle)

mutual

theorem BranchTest.holds_settings (test : BranchTest) :
  test.holds { rules with settings } b actor event = test.holds rules b actor event
  := by
  cases test with
  | all tests => exact testsHold_settings tests
  | _ => rfl

theorem testsHold_settings (tests : List BranchTest) :
  testsHold { rules with settings } b actor event tests = testsHold rules b actor event tests
  := by
  cases tests with
  | nil => rfl
  | cons test rest => rw [testsHold, testsHold, test.holds_settings, testsHold_settings rest]

end

mutual

theorem Condition.holds_settings (condition : Condition) :
  condition.holds { rules with settings } b actor event = condition.holds rules b actor event
  := by
  cases condition with
  | all conditions => exact conditionsHold_settings conditions
  | _ => rfl

theorem conditionsHold_settings (conditions : List Condition) :
  conditionsHold { rules with settings } b actor event conditions
    = conditionsHold rules b actor event conditions
  := by
  cases conditions with
  | nil => rfl
  | cons condition rest =>
    rw [conditionsHold, conditionsHold, condition.holds_settings, conditionsHold_settings rest]

end

theorem Form.run_settings (form : Form) :
  form.run { rules with settings } emit actor event = form.run rules emit actor event
  := by
  cases form with
  | _ => rfl

/-- Scripts do not depend on settings. -/
theorem runScript_settings (script : List Step) :
  runScript { rules with settings } emit actor event script
    = runScript rules emit actor event script
  := by
  induction script using scriptInduction with
  | nil => rfl
  | form step form rest hform ih =>
    rw [runScript, runScript, runStep_form hform, runStep_form hform, form.run_settings, ih]
  | branch test thenSteps elseSteps rest ihthen ihelse ih =>
    have hbranch : runStep { rules with settings } emit actor event
        (.branch test thenSteps elseSteps)
          = runStep rules emit actor event (.branch test thenSteps elseSteps) := by
      rw [runStep, runStep, ihthen, ihelse]
      funext b
      rw [test.holds_settings]
    rw [runScript, runScript, hbranch, ih]

theorem runBlock_settings (uid : Uid) (departed : Option BoardUnit) :
  runBlock { rules with settings } emit event uid departed
    = runBlock rules emit event uid departed
  := by
  funext block b
  have happlies : ∀ u, block.applies { rules with settings } b u event
      = block.applies rules b u event := by
    intro u
    rw [RuleBlock.applies, RuleBlock.applies]
    simp only [Condition.holds_settings]
  simp only [runBlock, happlies, runScript_settings]

theorem broadcast_settings :
  broadcast { rules with settings } emit event = broadcast rules emit event
  := by
  have hblocks : ∀ id trigger, Ruleset.blocksOf { rules with settings } id trigger
      = rules.blocksOf id trigger := fun _ _ => rfl
  have hrespond : ∀ uid, respond { rules with settings } emit event uid
      = respond rules emit event uid := by
    intro uid
    funext b
    simp only [respond, runBlock_settings, hblocks]
  funext b
  rw [broadcast, broadcast, funext hrespond]

/-- Broadcasts that are limited in depth depend on settings in nothing else. -/
theorem Ruleset.emitWithin_settings (n : Nat) :
  emitWithin { rules with settings } n event = rules.emitWithin n event
  := by
  induction n generalizing event with
  | zero => rfl
  | succ n ih =>
    have hinner : emitWithin { rules with settings } n = rules.emitWithin n := funext ih
    rw [emitWithin, emitWithin, broadcast_settings, hinner]

end

/-! ### Limits of depth -/

namespace Ruleset

/-- The rules with another limit for how deep events can be nested. -/
def limited (rules : Ruleset) (limit : UInt32) : Ruleset :=
  { rules with settings.maxTriggerDepth := limit }

variable {rules : Ruleset} {limit : UInt32} {b : Battle}
  (hrules : 12 ≤ rules.settings.maxTriggerDepth.toNat) (hlimit : 12 ≤ limit.toNat)

include hrules hlimit

/-- A limit that is not less than the number of units makes no difference to an event. -/
theorem emit_limited (event : Event) (b : Battle) (hb : b.Shallow 12 event.depth) :
  (rules.limited limit).emit event b = rules.emit event b
  := by
  have hdeparted := hb.departed
  rw [emit, emit, limited, emitWithin_settings]
  apply emitWithin_agree hb
  · dsimp only
    omega
  · omega

/-- Nor does it make a difference to events that are not nested, one after another. -/
theorem emits_limited {α : Type} {events : α → Event} (hevents : ∀ a, (events a).depth = 0)
    (l : List α) (hb : b.Coherent) :
  forEach (fun a => (rules.limited limit).emit (events a)) l b
    = forEach (fun a => rules.emit (events a)) l b
  := by
  refine forEach_congr ?_ ?_ hb
  · intro a _ c hc
    apply emit_limited hrules hlimit
    rw [hevents a]
    apply hc.shallow
  · intro a _ c c' hc hleads
    apply hc.moves (rules.emit_moves _ _ _ hleads)

/-- Nor to a sweep. -/
theorem sweep_limited (source : Option Uid) (hb : b.Coherent) :
  (rules.limited limit).sweep source 1 b = rules.sweep source 1 b
  := by
  have hlength := b.length_units_le
  apply sweepWith_agree rules.emit_moves 12 hb
  · rw [UInt32.toNat_one]
    omega
  · intro event c _ hc
    apply emit_limited hrules hlimit event c hc

/-- Nor to an activation. -/
theorem runActivation_limited (uid : Uid) (ability : Ability) (event : Event)
    (hb : b.Shallow 12 event.depth) :
  (rules.limited limit).runActivation uid ability event b
    = rules.runActivation uid ability event b
  := by
  rw [runActivation, limited, runBlock_settings]
  apply runActivation_agree (emit_limited hrules hlimit) uid ability hb

/-- Nor to a refresh. -/
theorem refresh_limited (player : UInt8) (first second : Trigger) (hb : b.Coherent) :
  (rules.limited limit).refresh player first second b = rules.refresh player first second b
  := by
  apply bind_congr_ok
  intro lacks _
  apply bind_congr_ok
  intro m₁ hexpire
  have hm₁ : m₁.Coherent := hb.changeAll (fun _ _ => BoardUnit.expireBuffs_endures) hexpire
  dsimp only
  rw [emits_limited hrules hlimit (fun _ => rfl) _ hm₁]
  apply bind_congr_ok
  rintro ⟨m₂, r⟩ hannounce
  have hm₂ := hm₁.moves (emits_moves rules.emit_moves ⟨r, hannounce⟩)
  apply bind_congr_ok
  intro m₃ hkeep
  have hm₃ : m₃.Coherent := by
    apply hm₂.changeAll _ hkeep
    intro u v hv
    obtain rfl := Except.ok.inj hv
    apply BoardUnit.keepLack_endures
  rw [sweep_limited hrules hlimit none hm₃]

end Ruleset

end CardBattle
