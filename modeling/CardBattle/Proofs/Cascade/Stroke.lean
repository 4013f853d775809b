import CardBattle.Proofs.Cascade.Form
import CardBattle.Proofs.Cascade.Touch

/-!
# What the steps of a script do

What a step does to a unit is known from the step (`Step.Does`), and so is whether a sweep
follows on it (`Step.Wounds`).  Running a script is a sequence of strokes
(`runScript_strokes`), each of which belongs to one step of the script, at whatever nesting:
a touch in which units are altered as the step does it, or a wound together with the sweep
that follows.  What all steps of a script pass (`scriptAll`) is known of the step of each
stroke.
-/

namespace CardBattle

open Relation (ReflTransGen)
open Change

mutual

/-- A step passes a test, or every step of its branches does. -/
def Step.All (p : Step → Prop) : Step → Prop
  | .branch _ thenSteps elseSteps => scriptAll p thenSteps ∧ scriptAll p elseSteps
  | step => p step

/-- Every step of a script, at any nesting, passes a test. -/
def scriptAll (p : Step → Prop) : List Step → Prop
  | [] => True
  | step :: rest => step.All p ∧ scriptAll p rest

end

mutual

theorem Step.all_any (step : Step) :
  step.All fun _ => True
  := by
  cases step with
  | branch test thenSteps elseSteps =>
    exact ⟨scriptAll_any thenSteps, scriptAll_any elseSteps⟩
  | _ => trivial

/-- Every step passes the test that all steps pass. -/
theorem scriptAll_any (script : List Step) :
  scriptAll (fun _ => True) script
  := by
  cases script with
  | nil => trivial
  | cons step rest => exact ⟨step.all_any, scriptAll_any rest⟩

end

mutual

theorem Step.All.mono {p p' : Step → Prop} (hp : ∀ step, p step → p' step) {step : Step}
    (h : step.All p) :
  step.All p'
  := by
  cases step with
  | branch test thenSteps elseSteps =>
    exact ⟨scriptAll_mono hp thenSteps h.1, scriptAll_mono hp elseSteps h.2⟩
  | _ => exact hp _ h

/-- Every step of a script passes a test that is weaker than one that all steps pass. -/
theorem scriptAll_mono {p p' : Step → Prop} (hp : ∀ step, p step → p' step)
    (script : List Step) (h : scriptAll p script) :
  scriptAll p' script
  := by
  cases script with
  | nil => trivial
  | cons step rest => exact ⟨h.1.mono hp, scriptAll_mono hp rest h.2⟩

end

namespace Step

/-- What a step does to a unit.  Most steps only mark it, and of these only one touches the turn
up to which its active abilities are prevented. -/
def Does (step : Step) (u v : BoardUnit) : Prop :=
  u.Undergoes v ∧ match step with
    | .damage _ amount => u.takeDamage amount = .ok v
    | .heal _ amount | .healAllies amount _ => ∃ gain, u.heal amount = .ok (v, gain)
    | .modifyStat _ stat delta duration => u.addBuff stat delta duration = .ok v
    | .preventActive _ _ => u.Marks v
    | _ => u.Marks v ∧ v.preventedUntil = u.preventedUntil

/-- A step can take the last vitality of a unit, so that a sweep follows. -/
def Wounds : Step → Prop
  | .damage _ _ => True
  | .modifyStat _ stat delta _ => stat = .vitality ∧ delta < 0
  | _ => False

end Step

/-- One stroke of a script that `actor` runs on an event, which belongs to a step that passes
a test. -/
inductive Stroke (rules : Ruleset) (emit : Event → Change) (p : Step → Prop)
    (actor : BoardUnit) (event : Event) : Battle → Battle → Prop
  | touch {step : Step} {b b' : Battle} (hp : p step) (hspares : ¬step.Wounds)
      (h : Touch step.Does b b') : Stroke rules emit p actor event b b'
  /-- A step that wounds a unit, and the sweep after it. -/
  | wound {step : Step} {b m b' : Battle} {u v : BoardUnit} (hp : p step)
      (hwounds : step.Wounds) (hu : b.find? u.uid = some u) (h : step.Does u v)
      (hm : (b.replace v).Logs m) (hsweep : (sweepAfter emit actor event).Leads m b') :
      Stroke rules emit p actor event b b'

/-- The strokes of a script, one after another. -/
abbrev Strokes (rules : Ruleset) (emit : Event → Change) (p : Step → Prop)
    (actor : BoardUnit) (event : Event) : Battle → Battle → Prop :=
  ReflTransGen (Stroke rules emit p actor event)

variable {rules : Ruleset} {emit : Event → Change} {p : Step → Prop} {actor : BoardUnit}
  {event : Event} {A : BoardUnit → BoardUnit → Prop} {b b' : Battle} {u v : BoardUnit}

/-! ### Steps on one unit -/

/-- A step on a unit is skipped, or it acts on the unit that the reference names. -/
theorem onUnit_leads {ref : UnitRef} {act : BoardUnit → Change} :
  (onUnit actor event ref act).Leads b b'
    ↔ (ref.resolve? b actor event = none ∧ b' = b)
      ∨ ∃ u, ref.resolve? b actor event = some u ∧ (act u).Leads b b'
  := by
  cases hu : ref.resolve? b actor event with
  | none =>
    have hskip : onUnit actor event ref act b = skip b := by rw [onUnit, hu]
    simp only [Leads, hskip, reduceCtorEq, false_and, exists_false, or_false, true_and]
    exact leads_report
  | some u =>
    have hact : onUnit actor event ref act b = act u b := by rw [onUnit, hu]
    simp only [Leads, hact, reduceCtorEq, false_and, false_or, Option.some.injEq,
      exists_eq_left']

/-- A step on a unit goes as far as acting on any unit does. -/
theorem onUnit_reaches {r : Battle → Battle → Prop} {ref : UnitRef} {act : BoardUnit → Change}
    (hact : ∀ u, b.find? u.uid = some u → (act u).Leads b b' → ReflTransGen r b b')
    (h : (onUnit actor event ref act).Leads b b') :
  ReflTransGen r b b'
  := by
  obtain ⟨-, rfl⟩ | ⟨u, hu, h⟩ := onUnit_leads.mp h
  · apply ReflTransGen.refl
  · apply hact u (find?_of_resolve? hu) h

theorem replaceWith_leads {line : String} :
  (replaceWith v line).Leads b b' ↔ b' = (b.replace v).record line
  := leads_report

theorem record_touches (line : String) :
  Touches A b (b.record line)
  := ReflTransGen.single (.note (b.record_logs line))

/-- The remark on a unit that was treated is noted, if there is one. -/
theorem Outcome.apply_logs (rules : Ruleset) (u : BoardUnit) (o : Outcome) (b : Battle) :
  (o.unit?.elim b b.replace).Logs (o.apply rules u b)
  := by
  rw [apply]
  cases o.remark? with
  | none => apply Battle.Logs.refl
  | some remark => apply Battle.record_logs

/-- A unit that is treated is altered, if anything comes of it. -/
theorem Outcome.apply_touches {o : Outcome} (hu : b.find? u.uid = some u)
    (h : ∀ v, o.unit? = some v → A u v) :
  Touches A b (o.apply rules u b)
  := by
  apply ReflTransGen.tail _ (.note (o.apply_logs rules u b))
  cases hv : o.unit? with
  | none => apply ReflTransGen.refl
  | some v => apply ReflTransGen.single (.alter hu (h v hv))

/-- A sweep follows on a treatment that wounds. -/
theorem Treatment.close_leads {t : Treatment} :
  (t.close emit actor event).Leads b b'
    ↔ if t.wounds then (sweepAfter emit actor event).Leads b b' else b' = b
  := by
  unfold Leads close
  split
  · change (ran.andThen (sweepAfter emit actor event)).Leads b b' ↔ _
    simp only [leads_andThen, ran, leads_report, exists_eq_left]
    rfl
  · exact leads_report

theorem Treatment.run_leads {t : Treatment} :
  (t.run rules emit actor event u).Leads b b'
    ↔ ∃ o, t.treat b.turn u = .ok o
      ∧ (t.close emit actor event).Leads (o.apply rules u b) b'
  := by
  simp only [Leads, run, bind_eq_ok]
  constructor
  · rintro ⟨r, o, ho, h⟩
    exact ⟨o, ho, r, h⟩
  · rintro ⟨o, ho, r, h⟩
    exact ⟨r, o, ho, h⟩

/-! ### Steps on many units -/

/-- Units changed one after another are altered one after another. -/
theorem changeEach_touches {f : BoardUnit → Except Fault BoardUnit}
    (hf : ∀ {u v}, f u = .ok v → A u v) {uids : List Uid} (h : b.changeEach f uids = .ok b') :
  Touches A b b'
  := by
  induction uids generalizing b with
  | nil =>
    cases h
    apply ReflTransGen.refl
  | cons uid rest ih =>
    rw [Battle.changeEach] at h
    split at h
    · next u hu =>
      obtain ⟨v, hv, h⟩ := bind_eq_ok.mp h
      obtain rfl : u.uid = uid := by simpa using List.find?_some hu
      apply ReflTransGen.head (.alter hu (hf hv)) (ih h)
    · apply ih h

theorem Tending.runEach_touches {filter : UnitFilter} {t : Tending} {remark? : Option String}
    (hA : ∀ turn u v, t.change turn u = .ok v → A u v)
    (h : (t.runEach rules actor filter remark?).Leads b b') :
  Touches A b b'
  := by
  obtain ⟨r, h⟩ := h
  obtain ⟨m, hm, h⟩ := bind_eq_ok.mp h
  rw [leads_report.mp ⟨r, h⟩]
  exact (changeEach_touches (hA _ _ _) hm).tail (.note (Outcome.apply_logs _ _ { remark? } m))

/-! ### Steps on cards -/

theorem Dealing.run_touches {d : Dealing} (h : (d.run actor).Leads b b') :
  Touches A b b'
  := by
  obtain ⟨r, h⟩ := h
  rw [run] at h
  split at h
  · rw [leads_report.mp ⟨r, h⟩]
  · next side hside =>
    rw [leads_report.mp ⟨r, h⟩]
    apply ReflTransGen.head (.shift hside (d.shifts side))
    apply ReflTransGen.single (.note (Battle.foldl_record_logs _ _ _))

theorem stepPeekHand_touches {count : UInt32}
    (h : (stepPeekHand rules actor count).Leads b b') :
  Touches A b b'
  := by
  obtain ⟨r, h⟩ := h
  rw [stepPeekHand] at h
  dsimp only at h
  split at h
  · rw [leads_report.mp ⟨r, h⟩]
  · rw [leads_report.mp ⟨r, h⟩]
    apply record_touches

/-! ### Single steps -/

/-- A unit takes a buff, which is noted unless it is an aura, and after a loss of vitality a
sweep follows. -/
theorem stepModifyStat_leads {stat : Stat} {delta : Int32} {duration : Duration} :
  (stepModifyStat rules emit actor event stat delta duration u).Leads b b'
    ↔ ∃ v m, u.addBuff stat delta duration = .ok v
      ∧ m = (if duration = .aura then b.replace v else (b.replace v).record
        (rules.label v ++ " " ++ stat.label ++ " " ++ signedText delta))
      ∧ if stat = .vitality ∧ delta < 0 then (sweepAfter emit actor event).Leads m b' else b' = m
  := by
  constructor
  · rintro ⟨r, h⟩
    obtain ⟨v, hv, h⟩ := bind_eq_ok.mp h
    refine ⟨v, _, hv, rfl, ?_⟩
    dsimp only at h
    split at h
    · next hloss =>
      obtain ⟨m, hm, hsweep⟩ := leads_andThen.mp ⟨r, h⟩
      rw [if_pos hloss]
      rwa [leads_report.mp hm] at hsweep
    · next hgain =>
      rw [if_neg hgain]
      apply leads_report.mp ⟨r, h⟩
  · rintro ⟨v, m, hv, rfl, h⟩
    rw [Leads, stepModifyStat]
    simp only [hv, bind_eq_ok, Except.ok.injEq, exists_eq_left']
    split at h
    · next hloss =>
      simp only [if_pos hloss]
      exact leads_andThen.mpr ⟨_, leads_report.mpr rfl, h⟩
    · next hgain =>
      simp only [if_neg hgain]
      exact leads_report.mpr h

/-- At most a line is noted. -/
theorem logs_of_noted {p : Prop} [Decidable p] {m : Battle} {line : String}
    (h : m = if p then b else b.record line) :
  b.Logs m
  := by
  rw [h]
  split
  · apply Battle.Logs.refl
  · apply Battle.record_logs

/-- What a step of a form does to a unit. -/
def Form.Does (form : Form) (u v : BoardUnit) : Prop :=
  match form with
  | .unit _ t => ∃ turn o, t.treat turn u = .ok o ∧ o.unit? = some v
  | .each _ t _ => ∃ turn, t.change turn u = .ok v
  | _ => False

/-- Whether a step of a form wounds a unit. -/
def Form.wounds : Form → Bool
  | .unit _ t => t.wounds
  | _ => false

variable {step : Step} {form : Form}

theorem Form.Does.undergoes (h : form.Does u v) :
  u.Undergoes v
  := by
  unfold Form.Does at h
  split at h
  · obtain ⟨turn, o, ho, hv⟩ := h
    exact Treatment.undergoes ho hv
  · obtain ⟨turn, h⟩ := h
    exact Tending.change_undergoes h
  · exact h.elim

/-- A step does what its form does. -/
theorem Step.does_of_form (hform : step.form? = some form) (h : form.Does u v) :
  step.Does u v
  := by
  use h.undergoes
  cases step with
  | damage | modifyStat =>
    cases hform
    obtain ⟨turn, o, ho, hv⟩ := h
    obtain ⟨w, hw, ho⟩ := bind_eq_ok.mp ho
    cases ho
    cases hv
    exact hw
  | heal =>
    cases hform
    obtain ⟨turn, o, ho, hv⟩ := h
    obtain ⟨⟨w, gain⟩, hw, ho⟩ := bind_eq_ok.mp ho
    cases ho
    cases hv
    exact ⟨gain, hw⟩
  | healAllies =>
    cases hform
    obtain ⟨turn, h⟩ := h
    obtain ⟨o, ho, h⟩ := bind_eq_ok.mp h
    obtain ⟨⟨w, gain⟩, hw, ho⟩ := bind_eq_ok.mp ho
    cases ho
    cases h
    exact ⟨gain, hw⟩
  | grantImmunity =>
    cases hform
    obtain ⟨turn, h⟩ := h
    cases h
    exact ⟨u.foldl_addImmunity_marks _, u.foldl_addImmunity_preventedUntil _⟩
  | preventActive =>
    cases hform
    obtain ⟨turn, o, ho, hv⟩ := h
    cases ho
    exact (Marking.marked _ hv).marks
  | applyStatus | removeStatus | removeNegativeStatus | setFlag | boostAttack | grantReach
  | grantUntargetable =>
    cases hform
    obtain ⟨turn, o, ho, hv⟩ := h
    cases ho
    have hmarked := Marking.marked _ hv
    exact ⟨hmarked.marks, hmarked.preventedUntil rfl⟩
  | draw | discard | peekHand | swapPositions | revealHandCard | returnHandCard | unknown =>
    cases hform
    exact h.elim
  | branch => cases hform

theorem Step.wounds_form (hform : step.form? = some form) :
  step.Wounds ↔ form.wounds
  := by cases step <;> cases hform <;> simp [Step.Wounds, Form.wounds, Treatment.wounds]

/-- A step that neither branches nor wounds only touches a battle. -/
theorem runStep_touches (hform : step.form? = some form) (hspares : ¬step.Wounds)
    (h : (runStep rules emit actor event step).Leads b b') :
  Touches step.Does b b'
  := by
  rw [Step.wounds_form hform] at hspares
  rw [runStep_form hform] at h
  have hdoes : ∀ u v, form.Does u v → step.Does u v := fun _ _ => Step.does_of_form hform
  cases form with
  | unit whom t =>
    apply onUnit_reaches _ h
    intro u hu h
    obtain ⟨o, ho, h⟩ := Treatment.run_leads.mp h
    rw [Treatment.close_leads, if_neg (show ¬t.wounds from hspares)] at h
    rw [h]
    apply Outcome.apply_touches hu
    intro v hv
    exact hdoes u v ⟨_, o, ho, hv⟩
  | each filter t remark? =>
    apply Tending.runEach_touches _ h
    intro turn u v hv
    exact hdoes u v ⟨turn, hv⟩
  | cards d => exact Dealing.run_touches h
  | peek count => exact stepPeekHand_touches h
  | swap first second => exact ReflTransGen.single (.swap h)
  | wait choice hplayer =>
    rw [leads_report.mp h]
    apply record_touches
  | ignored => rw [leads_report.mp h]

/-- A step that wounds is skipped, or it alters a unit and a sweep follows. -/
theorem runStep_wounds (hform : step.form? = some form) (hwounds : step.Wounds)
    (h : (runStep rules emit actor event step).Leads b b') :
  b' = b ∨ ∃ u v m, b.find? u.uid = some u ∧ step.Does u v ∧ (b.replace v).Logs m
    ∧ (sweepAfter emit actor event).Leads m b'
  := by
  rw [Step.wounds_form hform] at hwounds
  rw [runStep_form hform] at h
  cases form with
  | unit whom t =>
    obtain ⟨-, rfl⟩ | ⟨u, hu, h⟩ := onUnit_leads.mp h
    · left
      rfl
    · right
      obtain ⟨o, ho, h⟩ := Treatment.run_leads.mp h
      rw [Treatment.close_leads, if_pos (show t.wounds from hwounds)] at h
      obtain ⟨v, hv⟩ := Treatment.exists_unit_of_wounds hwounds ho
      refine ⟨u, v, _, find?_of_resolve? hu, Step.does_of_form hform ⟨_, o, ho, hv⟩, ?_, h⟩
      have hlogs := o.apply_logs rules u b
      rwa [hv] at hlogs
  | _ => cases hwounds

/-! ### Scripts -/

/-- A step that does not branch is made of strokes of its own. -/
theorem plainStep_strokes (hform : step.form? = some form) (hp : p step)
    (h : (runStep rules emit actor event step).Leads b b') :
  Strokes rules emit p actor event b b'
  := by
  by_cases hwounds : step.Wounds
  · obtain rfl | ⟨u, v, m, hu, hdoes, hlogs, hsweep⟩ := runStep_wounds hform hwounds h
    · apply ReflTransGen.refl
    · apply ReflTransGen.single (.wound hp hwounds hu hdoes hlogs hsweep)
  · exact (runStep_touches hform hwounds h).lift id fun _ _ => Stroke.touch hp hwounds

theorem Step.All.of_form (hform : step.form? = some form) (h : step.All p) :
  p step
  := by
  cases step with
  | branch => cases hform
  | _ =>
    simp only [Step.All] at h
    exact h

/-- A script is made of strokes that belong to its steps. -/
theorem runScript_strokes (script : List Step) (hscript : scriptAll p script)
    (h : (runScript rules emit actor event script).Leads b b') :
  Strokes rules emit p actor event b b'
  := by
  induction script using scriptInduction generalizing b b' with
  | nil =>
    rw [runScript] at h
    rw [leads_done.mp h]
  | form step form rest hform ih =>
    rw [runScript] at h
    obtain ⟨m, hm, h⟩ := leads_andThen.mp h
    exact (plainStep_strokes hform (hscript.1.of_form hform) hm).trans (ih hscript.2 h)
  | branch test thenSteps elseSteps rest ihthen ihelse ih =>
    rw [runScript] at h
    obtain ⟨⟨hthen, helse⟩, hrest⟩ := hscript
    obtain ⟨m, ⟨r, hm⟩, h⟩ := leads_andThen.mp h
    rw [runStep_branch] at hm
    obtain ⟨c, hc, hm⟩ := leads_andThen.mp ⟨r, hm⟩
    rw [leads_report.mp hc] at hm
    apply ReflTransGen.trans _ (ih hrest h)
    split at hm
    · exact ihthen hthen hm
    · exact ihelse helse hm

/-- A step is made of strokes of its own, or of those of its branches. -/
theorem runStep_strokes (step : Step) (hstep : step.All p)
    (h : (runStep rules emit actor event step).Leads b b') :
  Strokes rules emit p actor event b b'
  := by
  apply runScript_strokes [step] ⟨hstep, trivial⟩
  rw [runScript, runScript, andThen_done]
  exact h

end CardBattle
