import CardBattle.Proofs.Battle.Integrity
import CardBattle.Proofs.Cascade.Move
import CardBattle.Proofs.Cascade.Reference

/-!
# Cascades that agree

How events are broadcast enters a script only through the sweeps after its steps, and the
event that it is run on only through those and through what the script sees of the event.
Where the sweeps agree, the scripts agree (`runScript_agree`), and so do the rule blocks and
the broadcasts made of them.  Sweeps agree where the broadcasts do that they can get to
(`sweepUpTo_agree`).

In particular, what an event gives for a reference makes no difference to a script that does
not mention it (`unmentioned_unseen`).
-/

namespace CardBattle

open Relation (ReflTransGen)
open Change

variable {rules : Ruleset} {emit emit' : Event → Change} {actor : BoardUnit}
  {event event' : Event} {mentions : UnitRef → Bool} {b : Battle} {P : Battle → Prop}

/-! ### Scripts -/

/-- A step on a unit that a reference names does the same if acting on any unit does. -/
theorem onUnit_agree {act act' : BoardUnit → Change} (h : event.Alike mentions event')
    {whom : UnitRef} (hwhom : mentions whom)
    (hact : ∀ u, b.find? u.uid = some u → act' u b = act u b) :
  onUnit actor event' whom act' b = onUnit actor event whom act b
  := by
  rw [onUnit, onUnit, h.resolve?_eq hwhom]
  cases hu : whom.resolve? b actor event with
  | none => rfl
  | some u => apply hact u (find?_of_resolve? hu)

theorem stepSwap_agree (h : event.Alike mentions event') {first second : UnitRef}
    (hfirst : mentions first) (hsecond : mentions second) :
  stepSwap rules actor event' first second b = stepSwap rules actor event first second b
  := by
  rw [stepSwap, stepSwap, h.resolve?_eq hfirst, h.resolve?_eq hsecond]

section

variable (hemit : ∀ event b b', (emit event).Leads b b' → Moves b b')
  (hmoves : ∀ b b', P b → Moves b b' → P b')
  (hsweep : ∀ actor b, P b → sweepAfter emit' actor event' b = sweepAfter emit actor event b)

include hsweep

theorem Treatment.close_agree (t : Treatment) (hb : P b) :
  t.close emit' actor event' b = t.close emit actor event b
  := by
  rw [close, close]
  split
  · apply andThen_congr rfl
    intro m hm
    rw [leads_report.mp hm]
    apply hsweep actor b hb
  · rfl

include hmoves

/-- A step that does not branch does the same on both of two events that are alike to it. -/
theorem Form.run_agree (form : Form) (h : event.Alike (fun ref => form.mentions ref) event')
    (hb : P b) :
  form.run rules emit' actor event' b = form.run rules emit actor event b
  := by
  cases form with
  | unit whom t =>
    apply onUnit_agree h (decide_eq_true rfl)
    intro u hu
    apply bind_congr_ok
    intro o ho
    apply t.close_agree hsweep
    exact hmoves b _ hb (Treatment.apply_moves rules hu ho)
  | swap first second =>
    apply stepSwap_agree h
    · simp [Form.mentions]
    · simp [Form.mentions]
  | _ => rfl

include hemit

/-- A script does the same on both of two events that are alike to it. -/
theorem runScript_agree (script : List Step)
    (h : event.Alike (fun ref => scriptMentions ref script) event') (hb : P b) :
  runScript rules emit' actor event' script b = runScript rules emit actor event script b
  := by
  induction script using scriptInduction generalizing b with
  | nil => rfl
  | form step form rest hform ih =>
    have hstep : event.Alike (fun ref => form.mentions ref) event' := by
      apply h.mono
      intro ref href
      rw [scriptMentions, Step.mentions_form hform, href, Bool.true_or]
    have hrest : event.Alike (fun ref => scriptMentions ref rest) event' := by
      apply h.mono
      intro ref href
      rw [scriptMentions, href, Bool.or_true]
    rw [runScript, runScript, runStep_form hform, runStep_form hform]
    apply andThen_congr (form.run_agree hmoves hsweep hstep hb)
    intro m hm
    rw [← runStep_form hform] at hm
    exact ih hrest (hmoves b m hb (runStep_moves hemit hm))
  | branch test thenSteps elseSteps rest ihthen ihelse ih =>
    have htest : event.Alike (fun ref => test.mentions ref) event' := by
      apply h.mono
      intro ref href
      simp [scriptMentions, Step.mentions, href]
    have hthen : event.Alike (fun ref => scriptMentions ref thenSteps) event' := by
      apply h.mono
      intro ref href
      simp [scriptMentions, Step.mentions, href]
    have helse : event.Alike (fun ref => scriptMentions ref elseSteps) event' := by
      apply h.mono
      intro ref href
      simp [scriptMentions, Step.mentions, href]
    have hrest : event.Alike (fun ref => scriptMentions ref rest) event' := by
      apply h.mono
      intro ref href
      simp [scriptMentions, href]
    rw [runScript, runScript]
    apply andThen_congr
    · rw [runStep_branch, runStep_branch, test.holds_alike rules b actor htest]
      apply andThen_congr rfl
      intro m hm
      rw [leads_report.mp hm]
      split
      · exact ihthen hthen hb
      · exact ihelse helse hb
    · intro m hm
      exact ih hrest (hmoves b m hb (runStep_moves hemit hm))

/-! ### Rule blocks and broadcasts -/

/-- A rule block does the same on both of two events that are alike to it. -/
theorem runBlock_agree {uid : Uid} {departed : Option BoardUnit} {block : RuleBlock}
    (hcondition : event.Alike (fun ref => block.judges ref) event')
    (hscript : event.Alike (fun ref => scriptMentions ref block.script) event') (hb : P b) :
  runBlock rules emit' event' uid departed block b
    = runBlock rules emit event uid departed block b
  := by
  rw [runBlock, runBlock]
  split
  · rfl
  · rw [block.applies_alike rules b _ hcondition]
    split
    · apply runScript_agree hemit hmoves hsweep _ hscript hb
    · rfl

/-- Rule blocks do the same on both of two events that are alike to all of them. -/
theorem runBlocks_agree {uid : Uid} {departed : Option BoardUnit} {blocks : List RuleBlock}
    (hcondition : ∀ block ∈ blocks, event.Alike (fun ref => block.judges ref) event')
    (hscript : ∀ block ∈ blocks,
      event.Alike (fun ref => scriptMentions ref block.script) event') (hb : P b) :
  forEach (runBlock rules emit' event' uid departed) blocks b
    = forEach (runBlock rules emit event uid departed) blocks b
  := by
  refine forEach_congr ?_ ?_ hb
  · intro block hblock c hc
    apply runBlock_agree hemit hmoves hsweep (hcondition block hblock) (hscript block hblock) hc
  · intro block _ c c' hc hleads
    apply runBlock_keeps _ hc hleads
    intro actor m m' hm hrun
    apply hmoves m m' hm (runScript_moves hemit hrun)

end

section

variable (hemit : ∀ event b b', (emit event).Leads b b' → Moves b b')
  (hmoves : ∀ b b', P b → Moves b b' → P b')

include hmoves hemit

/-- Sweeps agree if all broadcasts of their depth do after a departure. -/
theorem sweepUpTo_agree {source : Option Uid} {depth : UInt32} {n : Nat} {b : Battle}
    (hdepart : ∀ owner gone m, b.removeFallen? = some (owner, gone, m) → P m)
    (hagree : ∀ event b, event.depth = depth → P b → emit' event b = emit event b) :
  sweepUpTo emit' source depth n b = sweepUpTo emit source depth n b
  := by
  induction n generalizing b with
  | zero => rfl
  | succ n ih =>
    unfold sweepUpTo
    split
    · rfl
    · next owner gone m hremove =>
      have hm := hdepart owner gone m hremove
      apply andThen_congr
      · refine forEach_congr (P := P) ?_ ?_ hm
        · intro trigger _ c hc
          apply hagree _ _ rfl hc
        · intro trigger _ c c' hc hleads
          apply hmoves c c' hc (hemit _ _ _ hleads)
      · intro c hc
        have hkept := hmoves m c hm (emits_moves hemit hc)
        apply ih
        intro owner' gone' m' hremove'
        apply hmoves c m' hkept (.single (.depart hremove'))

variable (hsweep : ∀ actor b, P b →
  sweepAfter emit' actor event b = sweepAfter emit actor event b)

include hsweep

/-- Broadcasts of an event agree if the sweeps of the scripts that it calls for do. -/
theorem broadcast_agree (hb : P b) :
  broadcast rules emit' event b = broadcast rules emit event b
  := by
  have hblocks : ∀ uid departed blocks c, P c →
      forEach (runBlock rules emit' event uid departed) blocks c
        = forEach (runBlock rules emit event uid departed) blocks c := by
    intro uid departed blocks c hc
    apply runBlocks_agree hemit hmoves hsweep _ _ hc
    · intro block _
      apply Event.Alike.refl
    · intro block _
      apply Event.Alike.refl
  refine forEach_congr ?_ ?_ hb
  · intro uid _ c hc
    rw [respond, respond]
    split
    · split
      · apply hblocks _ _ _ c hc
      · rfl
    · split
      · apply hblocks _ _ _ c hc
      · rfl
  · intro uid _ c c' hc hleads
    apply respond_keeps _ hc hleads
    intro cardId block _ actor m m' hm hrun
    apply hmoves m m' hm (runScript_moves hemit hrun)

end

/-! ### References that are not mentioned -/

/-- A script does not mention what no step of it mentions. -/
theorem not_scriptMentions {ref : UnitRef} {script : List Step}
    (h : ∀ step ∈ script, ¬step.mentions ref) :
  ¬scriptMentions ref script
  := by
  induction script with
  | nil => simp [scriptMentions]
  | cons step rest ih =>
    have hrest := ih fun step hstep => h step (List.mem_cons_of_mem _ hstep)
    rw [scriptMentions, Bool.or_eq_true]
    rintro (hstep | hmentions)
    · exact h step List.mem_cons_self hstep
    · exact hrest hmentions

/-- What a script does not mention it does not see.  On two events that differ only in the uid
that they give for the target, the mover or the source, a script of which no step mentions that
reference, at any nesting, leads to the same battle with the same report, or stops with the
same fault; so does all that it causes. -/
theorem unmentioned_unseen {rules : Ruleset} {ref : UnitRef} {script : List Step}
    (hscript : ∀ step ∈ script, ¬step.mentions ref) {event event' : Event}
    (hevent : event.DiffersAt ref event') (actor : BoardUnit) (b : Battle) :
  rules.run actor event' script b = rules.run actor event script b
  := by
  have hdepth : event'.depth = event.depth := by
    cases hevent with
    | _ => rfl
  apply runScript_agree (P := fun _ => True) rules.emit_moves (fun _ _ _ _ => trivial)
  · intro actor c _
    rw [sweepAfter, sweepAfter, Event.innerDepth, Event.innerDepth, hdepth]
  · apply Event.Alike.of_differs hevent (not_scriptMentions hscript)
  · trivial

/-- In a duel the first unit takes the life of the source, in a script that looks for the mover
first, and it does not matter whether the script is aimed at the second unit or at none. -/
theorem unmentioned_unseen_duel :
  let rules : Ruleset := { catalog := ⟨[], List.nodup_nil⟩ }
  let script : List Step := [
    .branch (.all [.countAtLeast {} 1, .adjacentToSelf .mover]) [.draw 1] [
      .branch (.countAtLeast { allegiance := .enemy } 1) [.damage .source 9] []]]
  let event : Event := { trigger := .activate, player := 0, source := some ⟨2⟩ }
  ∃ actor, Battle.duel.find? ⟨1⟩ = some actor ∧ (∀ step ∈ script, ¬step.mentions .target)
    ∧ event.DiffersAt .target { event with target := some ⟨2⟩ }
    ∧ rules.run actor { event with target := some ⟨2⟩ } script .duel
      = rules.run actor event script .duel
    ∧ ∃ b', (rules.run actor event script).Leads .duel b' ∧ b'.find? ⟨2⟩ = none
  := by
  intro rules script event
  have hscript : ∀ step ∈ script, ¬step.mentions .target := by decide
  have hevent : event.DiffersAt .target { event with target := some ⟨2⟩ } := .target _ _
  obtain ⟨actor, hactor⟩ := Option.isSome_iff_exists.mp
    (show (Battle.duel.find? ⟨1⟩).isSome by decide)
  refine ⟨actor, hactor, hscript, hevent, unmentioned_unseen hscript hevent actor .duel, ?_⟩
  have hruns : (Battle.duel.find? ⟨1⟩).any fun actor =>
      (rules.run actor event script .duel).toOption.any fun result =>
        (result.1.find? ⟨2⟩).isNone := by decide
  rw [hactor, Option.any_some] at hruns
  obtain ⟨b', hleads, hgone⟩ := exists_leads (p := fun b' => (b'.find? ⟨2⟩).isNone) hruns
  exact ⟨b', hleads, Option.isNone_iff_eq_none.mp hgone⟩

end CardBattle
