import CardBattle.Proofs.Cascade.Soundness

/-!
# Steps that are skipped

A step is skipped when a unit that it acts on is not on a board, when it is to exchange a unit
with itself or across the boards, or when it is about the cards of a player who has no side
(`Step.IsSkipped`).  This is known before the step begins: the battle stays as it is, log and
all, and nothing is left to a player (`skipped_changes_nothing`).  The script goes on as though
the step were not in it (`Ruleset.run_skipped`).
-/

namespace CardBattle

open Change

/-- In a script that `actor` runs on an event, a step does not find what it acts on. -/
def Step.IsSkipped (b : Battle) (actor : BoardUnit) (event : Event) : Step → Prop
  | .damage whom _ | .heal whom _ | .modifyStat whom _ _ _ | .applyStatus whom _ _
  | .removeStatus whom _ | .removeNegativeStatus whom | .preventActive whom _
  | .setFlag whom _ _ | .boostAttack whom _ | .grantReach whom _ | .grantUntargetable whom =>
      whom.resolve? b actor event = none
  | .swapPositions first second =>
      ∀ a c, first.resolve? b actor event = some a → second.resolve? b actor event = some c →
        a.uid = c.uid ∨ a.owner ≠ c.owner
  | .draw _ | .discard _ => b.side? actor.owner = none
  | .healAllies _ _ | .grantImmunity _ _ | .peekHand _ | .branch _ _ _ | .revealHandCard _
  | .returnHandCard _ | .unknown => False

/-- A step of a form does not find what it acts on. -/
def Form.IsSkipped (b : Battle) (actor : BoardUnit) (event : Event) : Form → Prop
  | .unit whom _ => whom.resolve? b actor event = none
  | .cards _ => b.side? actor.owner = none
  | .swap first second =>
      ∀ a c, first.resolve? b actor event = some a → second.resolve? b actor event = some c →
        a.uid = c.uid ∨ a.owner ≠ c.owner
  | _ => False

/-- Where a change has a result, it reports that a step was run. -/
def Change.Counts (c : Change) (b : Battle) : Prop :=
  ∀ b' r, c b = .ok (b', r) → 0 < r.stepsRun

variable {rules : Ruleset} {emit : Event → Change} {actor : BoardUnit} {event : Event}
  {b : Battle} {u : BoardUnit} {step : Step} {form : Form}

theorem Step.isSkipped_form (hform : step.form? = some form) :
  step.IsSkipped b actor event ↔ form.IsSkipped b actor event
  := by cases step <;> cases hform <;> rfl

theorem Step.eq_unknown_of_form (hform : step.form? = some .ignored) :
  step = .unknown
  := by
  cases step with
  | unknown => rfl
  | _ => cases hform

/-! ### Steps that are run -/

theorem counts_report {r : Report} (hr : 0 < r.stepsRun) :
  (report r).Counts b
  := by
  intro b' r' h
  cases h
  exact hr

theorem Change.Counts.andThen {first second : Change} (h : first.Counts b) :
  (first.andThen second).Counts b
  := by
  intro b' r hr
  obtain ⟨⟨m, s⟩, hs, hr⟩ := bind_eq_ok.mp hr
  obtain ⟨⟨b', t⟩, -, hr⟩ := bind_eq_ok.mp hr
  cases hr
  exact Nat.lt_of_lt_of_le (h m s hs) (Nat.le_add_right _ _)

theorem Treatment.run_counts (t : Treatment) :
  (t.run rules emit actor event u).Counts b
  := by
  intro b' r h
  obtain ⟨o, -, h⟩ := bind_eq_ok.mp h
  rw [close] at h
  split at h
  · exact (counts_report Nat.one_pos).andThen b' r h
  · exact counts_report Nat.one_pos b' r h

/-- A step on a unit that is on a board is run when what it does to the unit is. -/
theorem onUnit_counts {ref : UnitRef} {act : BoardUnit → Change} (hact : ∀ u, (act u).Counts b)
    (hfound : ref.resolve? b actor event ≠ none) :
  (onUnit actor event ref act).Counts b
  := by
  intro b' r h
  rw [onUnit] at h
  split at h
  · next u hu => exact hact u b' r h
  · next hnone => exact absurd hnone hfound

/-- Every player has an opponent on one of the sides. -/
theorem stepPeekHand_counts (count : UInt32) :
  (stepPeekHand rules actor count).Counts b
  := by
  intro b' r h
  dsimp only [stepPeekHand] at h
  split at h
  · next hnone =>
    rw [opponentOf, Battle.side?] at hnone
    split at hnone <;> cases hnone
  · exact counts_report Nat.one_pos b' r h

/-! ### What becomes of a step -/

theorem onUnit_skips {ref : UnitRef} {act : BoardUnit → Change}
    (hnone : ref.resolve? b actor event = none) :
  onUnit actor event ref act b = .ok (b, .skipped)
  := by
  rw [onUnit, hnone]
  rfl

/-- A step that does not find what it acts on is skipped. -/
theorem runStep_skips (h : step.IsSkipped b actor event) :
  runStep rules emit actor event step b = .ok (b, .skipped)
  := by
  cases hform : step.form? with
  | none =>
    obtain ⟨test, thenSteps, elseSteps, rfl⟩ := exists_branch_of_form? hform
    exact h.elim
  | some form =>
    rw [Step.isSkipped_form hform] at h
    rw [runStep_form hform]
    cases form with
    | unit whom t => exact onUnit_skips h
    | cards d =>
      rw [Form.run, Dealing.run, show b.side? actor.owner = none from h]
      rfl
    | swap first second => exact stepSwap_skips h
    | each | peek | wait | ignored => exact h.elim

/-- In a coherent battle a step that finds what it acts on is run, if it is known at all. -/
theorem Form.run_counts (hb : b.Coherent) (h : ¬form.IsSkipped b actor event)
    (hknown : form ≠ .ignored) :
  (form.run rules emit actor event).Counts b
  := by
  cases form with
  | unit whom t => exact onUnit_counts (fun u => t.run_counts) h
  | each filter t remark? =>
    intro b' r hr
    obtain ⟨m, -, hr⟩ := bind_eq_ok.mp hr
    exact counts_report Nat.one_pos b' r hr
  | cards d =>
    intro b' r hr
    rw [run, Dealing.run] at hr
    split at hr
    · next hnone => exact absurd hnone h
    · exact counts_report Nat.one_pos b' r hr
  | peek count => exact stepPeekHand_counts count
  | swap first second =>
    simp only [Form.IsSkipped, not_forall, not_or, not_not, exists_prop] at h
    obtain ⟨a, c, ha, hc, hne, howner⟩ := h
    obtain ⟨side, board, -, -, -, -, hswap⟩ := stepSwap_trades hb rules ha hc hne howner
    intro b' r hr
    rw [run, hswap] at hr
    cases hr
    exact Nat.one_pos
  | wait choice hplayer => exact counts_report Nat.one_pos
  | ignored => exact absurd rfl hknown

/-- So is a branch, whatever its test decides. -/
theorem runStep_counts (hb : b.Coherent) (h : ¬step.IsSkipped b actor event)
    (hknown : step ≠ .unknown) :
  (runStep rules emit actor event step).Counts b
  := by
  cases hform : step.form? with
  | none =>
    obtain ⟨test, thenSteps, elseSteps, rfl⟩ := exists_branch_of_form? hform
    intro b' r hr
    rw [runStep_branch] at hr
    exact (counts_report Nat.one_pos).andThen b' r hr
  | some form =>
    rw [runStep_form hform]
    apply form.run_counts hb
    · rwa [← Step.isSkipped_form hform]
    · rintro rfl
      exact hknown (Step.eq_unknown_of_form hform)

namespace Ruleset

/-- But for the count of steps that are skipped, a script goes on as though such a step were not
in it. -/
theorem run_skipped {before after : List Step} {step : Step}
    (h : ∀ m, (rules.run actor event before).Leads b m → step.IsSkipped m actor event) :
  rules.run actor event (before ++ step :: after) b
    = (rules.run actor event (before ++ after) b).map fun result =>
      (result.1, { result.2 with stepsSkipped := result.2.stepsSkipped + 1 })
  := by
  rw [run_append, run_append, ← List.singleton_append, run_append, run_single]
  cases hbefore : rules.run actor event before b with
  | error fault => simp only [andThen, hbefore, bind, Except.bind, Except.map]
  | ok result =>
    obtain ⟨m, r⟩ := result
    have hskips : runStep rules rules.emit actor event step m = .ok (m, .skipped) :=
      runStep_skips (h m ⟨r, hbefore⟩)
    rw [andThen_of_ok hbefore, andThen_of_ok hbefore, andThen_of_ok hskips]
    cases rules.run actor event after m with
    | error fault => rfl
    | ok result => simp only [Except.map, Report.append_skipped]

end Ruleset

/-- A step of a script that does not find what it acts on is skipped, and no other step is.  The
battle stays as it is, and nothing is left to a player. -/
theorem skipped_changes_nothing (hb : b.corruption? = none) {before : List Step} {m : Battle}
    (hm : (rules.run actor event before).Leads b m) (step : Step) :
  (step.IsSkipped m actor event → rules.run actor event [step] m = .ok (m, .skipped))
    ∧ ∀ m' r, rules.run actor event [step] m = .ok (m', r) →
      r.stepsRun = 0 → r.stepsSkipped ≠ 0 →
      step.IsSkipped m actor event ∧ m' = m ∧ r = .skipped
  := by
  have hcoherent : m.Coherent :=
    (Ruleset.run_sound (Battle.corruption?_eq_none_iff.mp hb) hm).toCoherent
  rw [Ruleset.run_single]
  use runStep_skips
  intro m' r hr hrun hskipped
  by_cases h : step.IsSkipped m actor event
  · rw [runStep_skips h] at hr
    cases hr
    exact ⟨h, rfl, rfl⟩
  · by_cases hknown : step = .unknown
    · rw [hknown, runStep] at hr
      cases hr
      exact absurd rfl hskipped
    · have hcounts := runStep_counts hcoherent h hknown m' r hr
      omega

/-- In a duel a unit takes the life of its target, so that this cannot be healed any more. -/
theorem skipped_changes_nothing_duel :
  let rules : Ruleset := { catalog := ⟨[], List.nodup_nil⟩ }
  let event : Event := { trigger := .activate, player := 0, target := some ⟨2⟩ }
  let step := Step.heal .target 1
  Battle.duel.corruption? = none
    ∧ ∃ actor m, Battle.duel.find? ⟨1⟩ = some actor
      ∧ (rules.run actor event [.damage .target 1]).Leads .duel m
      ∧ step.IsSkipped m actor event
      ∧ rules.run actor event [step] m = .ok (m, .skipped)
  := by
  intro rules event step
  have hduel : Battle.duel.corruption? = none := by decide
  obtain ⟨actor, hactor⟩ : ∃ actor, Battle.duel.find? ⟨1⟩ = some actor := ⟨_, rfl⟩
  obtain ⟨m, hm, hgone⟩ := exists_leads (c := rules.run actor event [.damage .target 1])
    (b := .duel) (p := fun m => (m.find? ⟨2⟩).isNone) (by cases hactor; decide)
  have hskips := (skipped_changes_nothing hduel hm step).1 (Option.isNone_iff_eq_none.mp hgone)
  have hskipped := (skipped_changes_nothing hduel hm step).2 m .skipped hskips rfl (by decide)
  exact ⟨hduel, actor, m, hactor, hm, hskipped.1, hskips⟩

end CardBattle
