import CardBattle.Proofs.Cascade.Stroke

/-!
# The beats of a script

Running a script is a sequence of beats (`runScript_beats`).  Most beats are touches that
take no unit its life.  Where an alteration can take the last vitality of a unit, the whole
sweep that follows belongs to the same beat, so that what comes between two beats is never a
battle in which units are still to leave.
-/

namespace CardBattle

open Relation (ReflTransGen)
open Change

/-- One beat of a script that `actor` runs on an event. -/
inductive Beat (rules : Ruleset) (emit : Event → Change) (allowed : Stat → Prop)
    (actor : BoardUnit) (event : Event) : Battle → Battle → Prop
  | touch {b b' : Battle} (h : Touch (BoardUnit.Spares allowed) b b') :
      Beat rules emit allowed actor event b b'
  /-- An alteration that may be lethal, and the sweep after it. -/
  | wound {b m b' : Battle} {u v : BoardUnit} (hu : b.find? u.uid = some u)
      (h : u.Alters allowed v) (hm : (b.replace v).Logs m)
      (hsweep : (sweepAfter emit actor event).Leads m b') :
      Beat rules emit allowed actor event b b'

/-- The beats of a script, one after another. -/
abbrev Beats (rules : Ruleset) (emit : Event → Change) (allowed : Stat → Prop)
    (actor : BoardUnit) (event : Event) : Battle → Battle → Prop :=
  ReflTransGen (Beat rules emit allowed actor event)

variable {rules : Ruleset} {emit : Event → Change} {allowed : Stat → Prop} {actor : BoardUnit}
  {event : Event} {b b' : Battle} {u v : BoardUnit}

/-! ### What is known of the steps -/

mutual

/-- What is known of a step is known of the steps of its branches. -/
theorem Step.ModifiesOnly.all {step : Step} (h : step.ModifiesOnly allowed) :
  step.All (Step.ModifiesOnly allowed)
  := by
  cases step with
  | branch test thenSteps elseSteps =>
    exact ⟨scriptModifiesOnly_all thenSteps h.1, scriptModifiesOnly_all elseSteps h.2⟩
  | _ => exact h

theorem scriptModifiesOnly_all (script : List Step) (h : scriptModifiesOnly allowed script) :
  scriptAll (Step.ModifiesOnly allowed) script
  := by
  cases script with
  | nil => trivial
  | cons step rest => exact ⟨h.1.all, scriptModifiesOnly_all rest h.2⟩

end

/-- What a step does to a unit is an alteration that the step is allowed. -/
theorem Step.Does.alters {step : Step} (hstep : step.ModifiesOnly allowed)
    (h : step.Does u v) :
  u.Alters allowed v
  := by
  obtain ⟨-, h⟩ := h
  cases step with
  | damage => exact .damage h
  | heal | healAllies =>
    obtain ⟨gain, hheal⟩ := h
    exact .heal hheal
  | modifyStat => exact .modify hstep h
  | preventActive => exact .mark h
  | _ => exact .mark h.1

/-- A step that does not wound takes no unit its life. -/
theorem Step.Does.spares {step : Step} (hstep : step.ModifiesOnly allowed)
    (hspares : ¬step.Wounds) (h : step.Does u v) :
  u.Spares allowed v
  := by
  use h.alters hstep
  obtain ⟨-, h⟩ := h
  cases step with
  | damage => exact absurd trivial hspares
  | heal | healAllies =>
    obtain ⟨gain, hheal⟩ := h
    apply BoardUnit.heal_alive hheal
  | modifyStat => apply BoardUnit.addBuff_alive h hspares
  | preventActive => exact h.alive
  | _ => exact h.1.alive

/-! ### Scripts -/

theorem Stroke.beat {p : Step → Prop} (hp : ∀ step, p step → step.ModifiesOnly allowed)
    (h : Stroke rules emit p actor event b b') :
  Beat rules emit allowed actor event b b'
  := by
  cases h with
  | touch hstep hspares h =>
    apply Beat.touch
    apply h.mono
    intro u v hdoes
    apply hdoes.spares (hp _ hstep) hspares
  | wound hstep _ hu hdoes hlogs hsweep => exact .wound hu (hdoes.alters (hp _ hstep)) hlogs hsweep

/-- A step that changes only statistics that are allowed is made of beats. -/
theorem runStep_beats (step : Step) (hstep : step.ModifiesOnly allowed)
    (h : (runStep rules emit actor event step).Leads b b') :
  Beats rules emit allowed actor event b b'
  := (runStep_strokes step hstep.all h).lift id fun _ _ => Stroke.beat fun _ => id

/-- A script that changes only statistics that are allowed is made of beats. -/
theorem runScript_beats (script : List Step) (hscript : scriptModifiesOnly allowed script)
    (h : (runScript rules emit actor event script).Leads b b') :
  Beats rules emit allowed actor event b b'
  := (runScript_strokes script (scriptModifiesOnly_all script hscript) h).lift id
    fun _ _ => Stroke.beat fun _ => id

end CardBattle
