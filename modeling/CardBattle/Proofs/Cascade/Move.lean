import CardBattle.Cascade.Broadcast
import CardBattle.Proofs.Cascade.Beat

/-!
# The moves of a cascade

Whatever comes of an event, of a script or of a sweep, however deep the events are nested,
is a sequence of single moves (`emit_moves`, `runScript_moves`, `sweep_moves`): the battle is
touched, or a unit without vitality departs.  What every move keeps is kept by the whole
cascade.
-/

namespace CardBattle

open Relation (ReflTransGen)
open Change

/-- A single move of a cascade. -/
inductive Move : Battle → Battle → Prop
  | touch {b b' : Battle} (h : Touch (BoardUnit.Alters fun _ => True) b b') : Move b b'
  | depart {b b' : Battle} {owner : UInt8} {gone : BoardUnit}
      (h : b.removeFallen? = some (owner, gone, b')) : Move b b'

/-- Moves one after another. -/
abbrev Moves : Battle → Battle → Prop :=
  ReflTransGen Move

variable {rules : Ruleset} {emit : Event → Change} {allowed : Stat → Prop} {actor : BoardUnit}
  {event : Event} {b b' : Battle}

/-- The treatment of a unit is made of moves. -/
theorem Treatment.apply_moves (rules : Ruleset) {t : Treatment} {turn : UInt32} {u : BoardUnit}
    {o : Outcome} (hu : b.find? u.uid = some u) (h : t.treat turn u = .ok o) :
  Moves b (o.apply rules u b)
  := by
  apply ReflTransGen.lift id (fun _ _ => Move.touch)
  apply Outcome.apply_touches hu
  intro v hv
  exact (t.undergoes h hv).alters

/-! ### Scripts one after another -/

/-- A script runs its steps one after another. -/
theorem runScript_eq_forEach (script : List Step) :
  runScript rules emit actor event script = forEach (runStep rules emit actor event) script
  := by
  induction script with
  | nil => rw [runScript, forEach]
  | cons step rest ih => rw [runScript, forEach, ih]

namespace Ruleset

/-- One script after another is both of them in sequence. -/
theorem run_append (rules : Ruleset) (actor : BoardUnit) (event : Event)
    (script script' : List Step) :
  rules.run actor event (script ++ script')
    = (rules.run actor event script).andThen (rules.run actor event script')
  := by simp only [run, runScript_eq_forEach, forEach_append]

/-- A script of one step does what the step does. -/
theorem run_single (rules : Ruleset) (actor : BoardUnit) (event : Event) (step : Step) :
  rules.run actor event [step] = runStep rules rules.emit actor event step
  := by rw [run, runScript_eq_forEach, forEach, forEach, andThen_done]

end Ruleset

/-! ### How units answer -/

/-- The uid of the unit eliminated is among the others. -/
theorem insertUid_perm (b : Battle) (gone : BoardUnit) (uids : List Uid) :
  (insertUid b gone uids).Perm (gone.uid :: uids)
  := by
  induction uids with
  | nil => apply List.Perm.refl
  | cons uid rest ih =>
    unfold insertUid
    split
    · apply List.Perm.refl
    · apply (ih.cons uid).trans
      apply List.Perm.swap

/-- The rule blocks of a card for a trigger are among those of its abilities. -/
theorem Ruleset.mem_blocksOf {cardId : String} {trigger : Trigger} {block : RuleBlock}
    (h : block ∈ rules.blocksOf cardId trigger) :
  ∃ card, rules.catalog.find? cardId = some card
    ∧ ∃ ability ∈ card.abilities, block ∈ ability.rules ∧ block.trigger = trigger
  := by
  unfold Ruleset.blocksOf at h
  split at h
  · next card hfound =>
    obtain ⟨ability, hability, hblock⟩ := List.mem_flatMap.mp h
    obtain ⟨hmem, hsame⟩ := List.mem_filter.mp hblock
    exact ⟨card, hfound, ability, hability, hmem, of_decide_eq_true hsame⟩
  · cases h

/-- There is no rule block for a trigger that no card in the catalog has one for. -/
theorem Ruleset.blocksOf_eq_nil {trigger : Trigger}
    (h : ∀ card ∈ rules.catalog.cards, card.blocksFor trigger = []) (cardId : String) :
  rules.blocksOf cardId trigger = []
  := by
  unfold Ruleset.blocksOf
  split
  · next card hfound => apply h card (List.mem_of_find?_eq_some hfound)
  · rfl

/-- A rule block comes to nothing, or a unit runs its script. -/
theorem runBlock_leads {uid : Uid} {departed : Option BoardUnit} {block : RuleBlock}
    (h : (runBlock rules emit event uid departed block).Leads b b') :
  b' = b ∨ ∃ actor, (b.find? uid <|> departed) = some actor
    ∧ (runScript rules emit actor event block.script).Leads b b'
  := by
  obtain ⟨r, h⟩ := h
  rw [runBlock] at h
  split at h
  · left
    apply leads_done.mp ⟨r, h⟩
  · next actor hactor =>
    split at h
    · right
      use actor, hactor, r
    · left
      apply leads_done.mp ⟨r, h⟩

/-- A uid names a unit that the event does not concern or no unit at all, or a unit on a
board answers, or the departed one does. -/
theorem respond_leads {uid : Uid} (h : (respond rules emit event uid).Leads b b') :
  (b' = b ∧ ∀ u, b.find? uid = some u → ¬event.concerns u)
    ∨ (∃ u, b.find? uid = some u ∧ event.concerns u
      ∧ (forEach (runBlock rules emit event uid none)
        (rules.blocksOf u.cardId event.trigger)).Leads b b')
    ∨ ∃ gone, b.find? uid = none ∧ event.departed? = some gone ∧ gone.uid = uid
      ∧ (forEach (runBlock rules emit event uid (some gone))
        (rules.blocksOf gone.cardId event.trigger)).Leads b b'
  := by
  obtain ⟨r, h⟩ := h
  rw [respond] at h
  split at h
  · next u hu =>
    split at h
    · next hconcerns =>
      right; left
      use u, hu, hconcerns, r
    · next hconcerns =>
      left
      use leads_done.mp ⟨r, h⟩
      intro v hv
      obtain rfl := Option.some.inj (hu.symm.trans hv)
      apply hconcerns
  · next hnone =>
    split at h
    · next gone hgone =>
      obtain ⟨hdeparted, huid⟩ := Option.filter_eq_some_iff.mp hgone
      right; right
      use gone, hnone, hdeparted, by simpa using huid, r
    · left
      use leads_done.mp ⟨r, h⟩
      intro v hv
      rw [hnone] at hv
      cases hv

section

variable {P : Battle → Prop}

/-- What its script keeps is kept by a rule block. -/
theorem runBlock_keeps {uid : Uid} {departed : Option BoardUnit} {block : RuleBlock}
    (hscript : ∀ actor b b', P b →
      (runScript rules emit actor event block.script).Leads b b' → P b')
    (hb : P b) (h : (runBlock rules emit event uid departed block).Leads b b') :
  P b'
  := by
  obtain rfl | ⟨actor, -, hrun⟩ := runBlock_leads h
  · apply hb
  · apply hscript _ _ _ hb hrun

/-- What their scripts keep is kept by the rule blocks of a unit. -/
theorem runBlocks_keeps {uid : Uid} {departed : Option BoardUnit} {blocks : List RuleBlock}
    (hscript : ∀ block ∈ blocks, ∀ actor b b', P b →
      (runScript rules emit actor event block.script).Leads b b' → P b')
    (hb : P b) (h : (forEach (runBlock rules emit event uid departed) blocks).Leads b b') :
  P b'
  := by
  apply forEach_keeps _ hb h
  intro block hmem c c' hc hblock
  apply runBlock_keeps (hscript block hmem) hc hblock

variable (hscript : ∀ cardId, ∀ block ∈ rules.blocksOf cardId event.trigger, ∀ actor b b',
  P b → (runScript rules emit actor event block.script).Leads b b' → P b')

include hscript

/-- What the scripts for an event keep is kept by the answer of a unit. -/
theorem respond_keeps {uid : Uid} (hb : P b)
    (h : (respond rules emit event uid).Leads b b') :
  P b'
  := by
  obtain ⟨rfl, -⟩ | ⟨u, -, -, hblocks⟩ | ⟨gone, -, -, -, hblocks⟩ := respond_leads h
  · apply hb
  · apply runBlocks_keeps (hscript u.cardId) hb hblocks
  · apply runBlocks_keeps (hscript gone.cardId) hb hblocks

/-- What the scripts for an event keep is kept by its broadcast. -/
theorem broadcast_keeps (hb : P b) (h : (broadcast rules emit event).Leads b b') :
  P b'
  := by
  obtain ⟨r, h⟩ := h
  apply forEach_keeps _ hb ⟨r, h⟩
  intro uid _ c c' hc hrespond
  apply respond_keeps hscript hc hrespond

end

/-! ### Sweeps and scripts -/

/-- A sweep ends when all units are alive; otherwise a unit leaves, the events of its
elimination are broadcast, and the sweep goes on. -/
theorem sweepUpTo_leads {source : Option Uid} {depth : UInt32} {n : Nat}
    (h : (sweepUpTo emit source depth (n + 1)).Leads b b') :
  (b.removeFallen? = none ∧ b' = b)
    ∨ ∃ owner gone m m', b.removeFallen? = some (owner, gone, m)
      ∧ (forEach (fun trigger => emit (.ofElimination trigger owner gone source depth))
        Trigger.eliminations).Leads m m'
      ∧ (sweepUpTo emit source depth n).Leads m' b'
  := by
  obtain ⟨r, h⟩ := h
  unfold sweepUpTo at h
  split at h
  · next hnone =>
    left
    use hnone, leads_done.mp ⟨r, h⟩
  · next owner gone m hremove =>
    right
    obtain ⟨m', hannounce, hrest⟩ := leads_andThen.mp ⟨r, h⟩
    use owner, gone, m, m', hremove, hannounce

section

/-- Changes made of moves are so one after another. -/
theorem forEach_moves {α : Type} {f : α → Change} {l : List α}
    (hf : ∀ a ∈ l, ∀ b b', (f a).Leads b b' → Moves b b') (h : (forEach f l).Leads b b') :
  Moves b b'
  := by
  apply forEach_keeps (P := Moves b) _ .refl h
  intro a ha c c' hc hleads
  apply hc.trans (hf a ha c c' hleads)

variable (hemit : ∀ event b b', (emit event).Leads b b' → Moves b b')

include hemit

/-- What comes of events one after another is made of moves. -/
theorem emits_moves {α : Type} {events : α → Event} {l : List α}
    (h : (forEach (fun a => emit (events a)) l).Leads b b') :
  Moves b b'
  := forEach_moves (fun _ _ => hemit _) h

theorem sweepUpTo_moves {source : Option Uid} {depth : UInt32} {n : Nat} {b b' : Battle}
    (h : (sweepUpTo emit source depth n).Leads b b') :
  Moves b b'
  := by
  induction n generalizing b with
  | zero => rw [leads_done.mp h]
  | succ n ih =>
    obtain ⟨-, rfl⟩ | ⟨owner, gone, m, m', hremove, hannounce, hrest⟩ := sweepUpTo_leads h
    · apply ReflTransGen.refl
    · apply ReflTransGen.head (.depart hremove)
      apply (emits_moves hemit hannounce).trans (ih hrest)

theorem sweepWith_moves {source : Option Uid} {depth : UInt32}
    (h : (sweepWith emit source depth).Leads b b') :
  Moves b b'
  := by
  obtain ⟨r, h⟩ := h
  apply sweepUpTo_moves hemit ⟨r, h⟩

theorem sweepAfter_moves (h : (sweepAfter emit actor event).Leads b b') :
  Moves b b'
  := by
  obtain ⟨r, h⟩ := h
  obtain ⟨depth, -, h⟩ := bind_eq_ok.mp h
  apply sweepWith_moves hemit ⟨r, h⟩

/-- A beat is made of moves. -/
theorem Beat.moves (h : Beat rules emit allowed actor event b b') :
  Moves b b'
  := by
  cases h with
  | touch h =>
    apply ReflTransGen.single
    apply Move.touch
    apply h.mono
    intro u v hspares
    apply hspares.alters.mono fun _ _ => trivial
  | wound hu h hm hsweep =>
    apply ReflTransGen.head (.touch (.alter hu (h.mono fun _ _ => trivial)))
    apply ReflTransGen.head (.touch (.note hm))
    apply sweepAfter_moves hemit hsweep

theorem beats_moves (h : Beats rules emit allowed actor event b b') :
  Moves b b'
  := by
  induction h with
  | refl => apply ReflTransGen.refl
  | tail _ hbeat ih => apply ih.trans (hbeat.moves hemit)

/-- A stroke is made of moves. -/
theorem Stroke.moves {p : Step → Prop} (h : Stroke rules emit p actor event b b') :
  Moves b b'
  := (h.beat fun step _ => step.modifiesOnly_any).moves hemit

theorem runStep_moves {step : Step} (h : (runStep rules emit actor event step).Leads b b') :
  Moves b b'
  := beats_moves hemit (runStep_beats step step.modifiesOnly_any h)

theorem runScript_moves {script : List Step}
    (h : (runScript rules emit actor event script).Leads b b') :
  Moves b b'
  := beats_moves hemit (runScript_beats script (scriptModifiesOnly_any script) h)

/-- A rule block is made of moves. -/
theorem runBlock_moves {uid : Uid} {departed : Option BoardUnit} {block : RuleBlock}
    (h : (runBlock rules emit event uid departed block).Leads b b') :
  Moves b b'
  := by
  apply runBlock_keeps (P := Moves b) _ .refl h
  intro actor c c' hc hscript
  apply hc.trans (runScript_moves hemit hscript)

/-- The answer of a unit to an event is made of moves. -/
theorem respond_moves {uid : Uid} (h : (respond rules emit event uid).Leads b b') :
  Moves b b'
  := by
  apply respond_keeps (P := Moves b) _ .refl h
  intro cardId block _ actor c c' hc hscript
  apply hc.trans (runScript_moves hemit hscript)

/-- The broadcast of an event is made of moves. -/
theorem broadcast_moves (h : (broadcast rules emit event).Leads b b') :
  Moves b b'
  := by
  obtain ⟨r, h⟩ := h
  exact forEach_moves (fun _ _ _ _ => respond_moves hemit) ⟨r, h⟩

end

/-! ### Events -/

namespace Ruleset

theorem emitWithin_moves {n : Nat} (h : (rules.emitWithin n event).Leads b b') :
  Moves b b'
  := by
  induction n generalizing event b b' with
  | zero => rw [leads_done.mp h]
  | succ n ih => apply broadcast_moves (fun _ _ _ => ih) h

/-- An event that is not nested too deep is broadcast. -/
theorem emit_of_le (h : event.depth ≤ rules.settings.maxTriggerDepth) :
  rules.emit event = broadcast rules
    (rules.emitWithin (rules.settings.maxTriggerDepth.toNat - event.depth.toNat)) event
  := by
  rw [UInt32.le_iff_toNat_le] at h
  rw [emit, Nat.succ_sub h, emitWithin]

/-- An event that is nested too deep is dropped. -/
theorem emit_of_lt (h : rules.settings.maxTriggerDepth < event.depth) :
  rules.emit event = done
  := by
  rw [UInt32.lt_iff_toNat_lt] at h
  rw [emit, Nat.sub_eq_zero_of_le h, emitWithin]

/-- What comes of an event is made of moves. -/
theorem emit_moves (event : Event) (b b' : Battle) (h : (rules.emit event).Leads b b') :
  Moves b b'
  := emitWithin_moves h

/-- Nothing comes of an event that no rule block is for. -/
theorem emit_nothing (hblocks : ∀ cardId, rules.blocksOf cardId event.trigger = [])
    (h : (rules.emit event).Leads b b') :
  b' = b
  := by
  rw [emit] at h
  cases hn : rules.settings.maxTriggerDepth.toNat + 1 - event.depth.toNat with
  | zero =>
    rw [hn] at h
    apply leads_done.mp h
  | succ n =>
    rw [hn] at h
    apply broadcast_keeps (P := (· = b)) _ rfl h
    intro cardId block hblock
    rw [hblocks cardId] at hblock
    cases hblock

/-- What comes of an event is made of touches that take no unit its life, if no step of the rule
blocks for it wounds. -/
theorem emit_touches
    (hrules : ∀ cardId, ∀ block ∈ rules.blocksOf cardId event.trigger,
      scriptAll (fun step => ¬step.Wounds) block.script)
    (h : (rules.emit event).Leads b b') :
  Touches (BoardUnit.Spares fun _ => True) b b'
  := by
  rw [emit] at h
  cases hn : rules.settings.maxTriggerDepth.toNat + 1 - event.depth.toNat with
  | zero =>
    rw [hn] at h
    rw [leads_done.mp h]
  | succ n =>
    rw [hn] at h
    apply broadcast_keeps (P := Touches (BoardUnit.Spares fun _ => True) b) _ .refl h
    intro cardId block hblock actor c c' hc hrun
    apply hc.trans
    apply (runScript_strokes block.script (hrules cardId block hblock) hrun).lift id
    intro d d' hstroke
    cases hstroke with
    | touch _ hspares h =>
      apply h.mono
      intro u v hdoes
      apply hdoes.spares (Step.modifiesOnly_any _) hspares
    | wound hspares hwounds => exact absurd hwounds hspares

/-- What comes of a sweep is made of moves. -/
theorem sweep_moves {source : Option Uid} {depth : UInt32}
    (h : (rules.sweep source depth).Leads b b') :
  Moves b b'
  := sweepWith_moves rules.emit_moves h

/-- What comes of an activation is made of moves. -/
theorem runActivation_moves {uid : Uid} {ability : Ability}
    (h : (rules.runActivation uid ability event).Leads b b') :
  Moves b b'
  := by
  apply forEach_moves _ h
  intro block _ c c' hblock
  apply runBlock_moves rules.emit_moves hblock

end Ruleset

end CardBattle
