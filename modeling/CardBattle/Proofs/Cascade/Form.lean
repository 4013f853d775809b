import CardBattle.Proofs.BoardUnit.Treatment
import CardBattle.Proofs.Report.Line
import CardBattle.Proofs.Side.Cards

/-!
# The forms of steps

A step of a script is a branch, or it has one of a few forms (`Step.form?`): it treats a unit,
tends all units that a filter admits, deals cards, peeks at a hand, exchanges two units, leaves
a choice to a player, or is ignored.  A step is run as its form says (`runStep_form`), so that
what is known of all forms is known of all steps: what they read of the battle and the event,
how they change units and cards, what they note in the log, and whether a sweep follows.

Scripts are made of steps that have a form and of branches, and what is proved of them is
proved along these (`scriptInduction`).
-/

namespace CardBattle

open Change

theorem BoardUnit.Persists.label {u v : BoardUnit} (h : u.Persists v) (rules : Ruleset) :
  rules.label v = rules.label u
  := by rw [Ruleset.label, Ruleset.label, Ruleset.cardOf?, Ruleset.cardOf?, h.cardId, h.uid]

/-- A way to move cards between the piles of a side, and what the log says of the cards moved
behind the name of the player.  It does not see the board, and no line is about a choice. -/
structure Dealing where
  deal : Side → List String × Side
  remarks : List String → List String
  shifts (s : Side) : s.Shifts (deal s).2
  deal_board (s : Side) (board : Board) :
    deal { s with board } = ((deal s).1, { (deal s).2 with board })
  silent {cards : List String} {remark : String} (h : remark ∈ remarks cards) (player : UInt8) :
    PendingChoice.ofLine? (playerText player ++ remark) = none

namespace Dealing

def draw (count : UInt32) : Dealing where
  deal := Side.drawUpTo count.toNat
  remarks cards := [" pesca " ++ toString cards.length ++ " carte"]
  shifts := Side.drawUpTo_shifts _
  deal_board := Side.drawUpTo_board _
  silent {cards remark} h player := by
    obtain rfl := List.mem_singleton.mp h
    apply PendingChoice.ofLine?_playerText
    · simp
    · simp

def discard (count : UInt32) : Dealing where
  deal := Side.discardUpTo count.toNat
  remarks cards := cards.map fun card => " scarta " ++ card
  shifts := Side.discardUpTo_shifts _
  deal_board := Side.discardUpTo_board _
  silent {cards remark} h player := by
    obtain ⟨card, -, rfl⟩ := List.mem_map.mp h
    apply PendingChoice.ofLine?_playerText
    · simp
    · simp

end Dealing

/-- What a step does that does not branch. -/
inductive Form
  | unit (whom : UnitRef) (t : Treatment)
  /-- Tends the units that a filter admits, and says so of the actor. -/
  | each (filter : UnitFilter) (t : Tending) (remark? : Option String)
  | cards (d : Dealing)
  | peek (count : UInt32)
  | swap (first second : UnitRef)
  | wait (choice : UInt8 → PendingChoice) (h : ∀ player, (choice player).player = player)
  | ignored

/-- The form of a step that does not branch. -/
def Step.form? : Step → Option Form
  | .damage whom amount => some (.unit whom (.damage amount))
  | .heal whom amount => some (.unit whom (.tend (.heal amount)))
  | .healAllies amount filter =>
      some (.each filter (.heal amount) (some (" cura gli alleati di " ++ toString amount)))
  | .modifyStat whom stat delta duration => some (.unit whom (.modify stat delta duration))
  | .applyStatus whom status detail =>
      some (.unit whom (.tend (.mark (.applyStatus status detail))))
  | .removeStatus whom status => some (.unit whom (.tend (.mark (.removeStatus status))))
  | .removeNegativeStatus whom => some (.unit whom (.tend (.mark .removeNegativeStatus)))
  | .preventActive whom cycles => some (.unit whom (.tend (.mark (.preventActive cycles))))
  | .grantImmunity filter statuses => some (.each filter (.mark (.grantImmunity statuses)) none)
  | .setFlag whom flag value => some (.unit whom (.tend (.mark (.setFlag flag value))))
  | .boostAttack whom boost => some (.unit whom (.tend (.mark (.boostAttack boost))))
  | .draw count => some (.cards (.draw count))
  | .discard count => some (.cards (.discard count))
  | .peekHand count => some (.peek count)
  | .swapPositions first second => some (.swap first second)
  | .grantReach whom reach => some (.unit whom (.tend (.mark (.grantReach reach))))
  | .grantUntargetable whom => some (.unit whom (.tend (.mark .grantUntargetable)))
  | .branch _ _ _ => none
  | .revealHandCard count => some (.wait (.revealHandCard · count) fun _ => rfl)
  | .returnHandCard count => some (.wait (.returnHandCard · count) fun _ => rfl)
  | .unknown => some .ignored

/-- The battle after a unit was treated. -/
def Outcome.apply (rules : Ruleset) (u : BoardUnit) (o : Outcome) (b : Battle) : Battle :=
  let b := o.unit?.elim b b.replace
  o.remark?.elim b fun remark => b.record (rules.label u ++ remark)

section

variable (rules : Ruleset) (emit : Event → Change) (actor : BoardUnit) (event : Event)

/-- What follows when a unit was treated: a sweep, if the treatment wounds. -/
def Treatment.close (t : Treatment) : Change := fun b =>
  if t.wounds then ran.andThen (sweepAfter emit actor event) b else ran b

/-- The change that treats a unit. -/
def Treatment.run (t : Treatment) (u : BoardUnit) : Change := fun b => do
  t.close emit actor event ((← t.treat b.turn u).apply rules u b)

/-- The change that deals cards of the owner of the actor. -/
def Dealing.run (d : Dealing) : Change := fun b =>
  match b.side? actor.owner with
  | none => skip b
  | some side =>
      let line remark := playerText actor.owner ++ remark
      ran ((d.remarks (d.deal side).1).foldl (fun b remark => b.record (line remark))
        (b.setSide actor.owner (d.deal side).2))

/-- The change that tends all units that a filter admits. -/
def Tending.runEach (filter : UnitFilter) (t : Tending) (remark? : Option String) : Change :=
  fun b => do
    let uids := (filter.select rules b actor).map BoardUnit.uid
    let b ← b.changeEach (t.change b.turn) uids
    ran (Outcome.apply rules actor { remark? } b)

/-- The change that a step of a form makes. -/
def Form.run : Form → Change
  | .unit whom t => onUnit actor event whom (t.run rules emit actor event)
  | .each filter t remark? => t.runEach rules actor filter remark?
  | .cards d => d.run actor
  | .peek count => stepPeekHand rules actor count
  | .swap first second => stepSwap rules actor event first second
  | .wait choice _ => stepWait actor (choice actor.owner) (choice actor.owner).demand
  | .ignored => report .ignored

end

variable {rules : Ruleset} {emit : Event → Change} {actor u : BoardUnit} {event : Event}
  {step : Step} {form : Form}

/-! ### Steps are run as their forms say -/

theorem stepDamage_form (amount : Int32) :
  stepDamage rules emit actor event amount = (Treatment.damage amount).run rules emit actor event
  := by
  funext u b
  rw [stepDamage, Treatment.run, Treatment.treat, bind_assoc]
  apply bind_congr_ok
  intro hurt hhurt
  simp only [(BoardUnit.takeDamage_restats hhurt).persists.label, String.append_assoc]
  rfl

theorem stepHeal_form (amount : Int32) :
  stepHeal rules amount = (Treatment.tend (.heal amount)).run rules emit actor event
  := by
  funext u b
  rw [stepHeal, Treatment.run, Treatment.treat, Tending.treat, bind_assoc]
  apply bind_congr_ok
  rintro ⟨healed, gain⟩ hheal
  simp only [(BoardUnit.heal_restats hheal).persists.label, String.append_assoc]
  rfl

theorem stepModifyStat_form (stat : Stat) (delta : Int32) (duration : Duration) :
  stepModifyStat rules emit actor event stat delta duration
    = (Treatment.modify stat delta duration).run rules emit actor event
  := by
  funext u b
  rw [stepModifyStat, Treatment.run, Treatment.treat, bind_assoc]
  apply bind_congr_ok
  intro changed hchanged
  simp only [(BoardUnit.addBuff_restats hchanged).persists.label, String.append_assoc, pure_bind,
    Outcome.apply, Option.elim_some, Treatment.close, Treatment.wounds, decide_eq_true_eq]
  split <;> split <;> rfl

/-- A mark leaves a unit its life, so that no sweep follows. -/
theorem mark_run (m : Marking) (u : BoardUnit) (b : Battle) :
  (Treatment.tend (.mark m)).run rules emit actor event u b
    = ran ((m.mark b.turn u).apply rules u b)
  := rfl

theorem stepApplyStatus_form (status : String) (detail : Option String) :
  stepApplyStatus rules status detail
    = (Treatment.tend (.mark (.applyStatus status detail))).run rules emit actor event
  := by
  funext u b
  rw [mark_run, stepApplyStatus, Marking.applyStatus]
  dsimp only
  split
  · rw [String.append_assoc]
    rfl
  · split
    · rfl
    · rw [String.append_assoc]
      rfl

theorem stepRemoveStatus_form (status : String) :
  stepRemoveStatus rules status
    = (Treatment.tend (.mark (.removeStatus status))).run rules emit actor event
  := by
  funext u b
  rw [mark_run, stepRemoveStatus, Marking.removeStatus]
  dsimp only
  split
  · rw [String.append_assoc]
    rfl
  · rfl

theorem stepRemoveNegativeStatus_form :
  stepRemoveNegativeStatus rules
    = (Treatment.tend (.mark .removeNegativeStatus)).run rules emit actor event
  := by
  funext u b
  rw [mark_run, stepRemoveNegativeStatus, Marking.removeNegativeStatus]
  dsimp only
  cases hcured : u.removeNegativeStatus? with
  | none => rfl
  | some cured =>
    dsimp only
    rw [(BoardUnit.removeNegativeStatus?_marks hcured).endures.toPersists.label,
      String.append_assoc]
    rfl

theorem stepPreventActive_form (cycles : UInt32) :
  stepPreventActive rules cycles
    = (Treatment.tend (.mark (.preventActive cycles))).run rules emit actor event
  := by
  funext u b
  simp only [mark_run, stepPreventActive, String.append_assoc]
  rfl

theorem stepHealAllies_form (amount : Int32) (filter : UnitFilter) :
  stepHealAllies rules actor amount filter
    = (Tending.heal amount).runEach rules actor filter
      (some (" cura gli alleati di " ++ toString amount))
  := by
  have hchange : ∀ turn, (Tending.heal amount).change turn
      = fun u => do return (← u.heal amount).1 := by
    intro turn
    funext u
    rw [Tending.change, Tending.treat, bind_assoc]
    rfl
  funext b
  simp only [stepHealAllies, Tending.runEach, hchange, String.append_assoc]
  rfl

theorem stepDraw_form (count : UInt32) :
  stepDraw actor count = (Dealing.draw count).run actor
  := by
  funext b
  rw [stepDraw, Dealing.run]
  cases b.side? actor.owner with
  | none => rfl
  | some side =>
    simp only [String.append_assoc]
    rfl

theorem stepDiscard_form (count : UInt32) :
  stepDiscard actor count = (Dealing.discard count).run actor
  := by
  funext b
  rw [stepDiscard, Dealing.run]
  cases b.side? actor.owner with
  | none => rfl
  | some side => simp only [Dealing.discard, List.foldl_map, String.append_assoc]

/-- A step that does not branch is run as its form says. -/
theorem runStep_form (h : step.form? = some form) :
  runStep rules emit actor event step = form.run rules emit actor event
  := by
  cases step with
  | damage whom amount =>
    cases h
    rw [runStep, Form.run, stepDamage_form]
  | heal whom amount =>
    cases h
    rw [runStep, Form.run, ← stepHeal_form]
  | healAllies amount filter =>
    cases h
    rw [runStep, Form.run, stepHealAllies_form]
  | modifyStat whom stat delta duration =>
    cases h
    rw [runStep, Form.run, stepModifyStat_form]
  | applyStatus whom status detail =>
    cases h
    rw [runStep, Form.run, ← stepApplyStatus_form]
  | removeStatus whom status =>
    cases h
    rw [runStep, Form.run, ← stepRemoveStatus_form]
  | removeNegativeStatus whom =>
    cases h
    rw [runStep, Form.run, ← stepRemoveNegativeStatus_form]
  | preventActive whom cycles =>
    cases h
    rw [runStep, Form.run, ← stepPreventActive_form]
  | draw count =>
    cases h
    rw [runStep, Form.run, stepDraw_form]
  | discard count =>
    cases h
    rw [runStep, Form.run, stepDiscard_form]
  | branch test thenSteps elseSteps => cases h
  | _ =>
    cases h
    rw [runStep]
    rfl

/-- Whether a step of a form depends on a reference. -/
def Form.mentions (ref : UnitRef) : Form → Bool
  | .unit whom _ => whom = ref
  | .swap first second => first = ref || second = ref
  | _ => false

theorem Step.mentions_form (h : step.form? = some form) (ref : UnitRef) :
  step.mentions ref = form.mentions ref
  := by cases step <;> cases h <;> rfl

theorem exists_branch_of_form? (h : step.form? = none) :
  ∃ test thenSteps elseSteps, step = .branch test thenSteps elseSteps
  := by
  cases step with
  | branch test thenSteps elseSteps => exact ⟨test, thenSteps, elseSteps, rfl⟩
  | _ => cases h

/-- A branch is run as the script that its test decides on. -/
theorem runStep_branch (test : BranchTest) (thenSteps elseSteps : List Step) (b : Battle) :
  runStep rules emit actor event (.branch test thenSteps elseSteps) b
    = ran.andThen (runScript rules emit actor event
      (if test.holds rules b actor event then thenSteps else elseSteps)) b
  := by
  rw [runStep]
  dsimp only
  split
  · rfl
  · rfl

/-! ### Scripts -/

/-- What holds of a script if it does of the rest, for a step that has a form, and of both
branches and the rest, for a branch, holds of every script. -/
theorem scriptInduction {P : List Step → Prop} (nil : P [])
    (form : ∀ step form rest, step.form? = some form → P rest → P (step :: rest))
    (branch : ∀ test thenSteps elseSteps rest, P thenSteps → P elseSteps → P rest →
      P (.branch test thenSteps elseSteps :: rest)) (script : List Step) :
  P script
  := by
  match script with
  | [] => exact nil
  | step :: rest =>
    have hrest := scriptInduction nil form branch rest
    cases hform : step.form? with
    | some f => exact form step f rest hform hrest
    | none =>
      obtain ⟨test, thenSteps, elseSteps, rfl⟩ := exists_branch_of_form? hform
      have hthen := scriptInduction nil form branch thenSteps
      have helse := scriptInduction nil form branch elseSteps
      exact branch test thenSteps elseSteps rest hthen helse hrest
termination_by sizeOf script

end CardBattle
