import CardBattle.Judgement
import Mathlib.Tactic.Use

/-!
# What scripts see of an event

A script sees of its event the unit that was eliminated and the uids that its references
stand for.  Two events are alike to it if these are the same (`Event.Alike`): then the tests
of its branches hold on both events or on neither, and so do the conditions of rule blocks.
-/

namespace CardBattle

mutual

/-- Whether a condition depends on a reference. -/
def Condition.mentions (ref : UnitRef) : Condition → Bool
  | .selfZone _ => false
  | .allyNameInPlay _ => false
  | .adjacentAlly _ => false
  | .moverIsEnemy => ref = .mover
  | .targetName _ => ref = .target
  | .targetIsEnemy => ref = .target
  | .targetFaction _ => ref = .target
  | .targetHasClass _ => ref = .target
  | .targetSlowerThanSelf => ref = .target
  | .selfFirstAttacker => false
  | .selfIsSource => ref = .source
  | .selfFlag _ => false
  | .countAtLeast _ _ => false
  | .all conditions => conditionsMention ref conditions
  | .unknown => false

/-- Whether one of the conditions depends on a reference. -/
def conditionsMention (ref : UnitRef) : List Condition → Bool
  | [] => false
  | condition :: rest => condition.mentions ref || conditionsMention ref rest

end

/-- The events carry the same unit, and the references that are mentioned stand for the same
uids in them, whichever unit it is that runs the script. -/
structure Event.Alike (mentions : UnitRef → Bool) (event event' : Event) : Prop where
  eliminated : event'.eliminated = event.eliminated
  uid? : ∀ ref, mentions ref → ∀ actor, ref.uid? actor event' = ref.uid? actor event

/-- The events differ only in the uid that one of the references to target, mover and source
stands for; either of them may have none. -/
inductive Event.DiffersAt : UnitRef → Event → Event → Prop
  | target (event : Event) (target : Option Uid) : DiffersAt .target event { event with target }
  | mover (event : Event) (mover : Option Uid) : DiffersAt .mover event { event with mover }
  | source (event : Event) (source : Option Uid) : DiffersAt .source event { event with source }

namespace Event.Alike

variable {mentions mentions' : UnitRef → Bool} {event event' : Event}

theorem refl (event : Event) :
  event.Alike mentions event
  := by
  use rfl
  intro ref _ actor
  rfl

/-- Events that are alike to a script are alike to its parts. -/
theorem mono (h : event.Alike mentions event') (hpart : ∀ ref, mentions' ref → mentions ref) :
  event.Alike mentions' event'
  := by
  use h.eliminated
  intro ref href
  apply h.uid? ref (hpart ref href)

/-- Events that differ in what a reference stands for are alike to what does not mention the
reference. -/
theorem of_differs {ref : UnitRef} (h : event.DiffersAt ref event') (href : ¬mentions ref) :
  event.Alike mentions event'
  := by
  constructor
  · cases h with
    | _ => rfl
  · intro other hother actor
    have hne : other ≠ ref := by
      rintro rfl
      exact href hother
    cases h with
    | target =>
      cases other with
      | target => exact absurd rfl hne
      | _ => rfl
    | mover =>
      cases other with
      | mover => exact absurd rfl hne
      | _ => rfl
    | source =>
      cases other with
      | source => exact absurd rfl hne
      | _ => rfl

/-- A reference that is mentioned names the same unit. -/
theorem resolve?_eq (h : event.Alike mentions event') {ref : UnitRef} (href : mentions ref)
    (b : Battle) (actor : BoardUnit) :
  ref.resolve? b actor event' = ref.resolve? b actor event
  := by
  rw [UnitRef.resolve?, UnitRef.resolve?, h.uid? ref href actor]

/-- A uid stands for the same unit. -/
theorem unit?_eq (h : event.Alike mentions event') :
  event'.unit? = event.unit?
  := by
  funext b uid
  rw [Event.unit?, Event.unit?, h.eliminated]

/-- If the target is mentioned, it is the same. -/
theorem target_eq (h : event.Alike mentions event') (htarget : mentions .target)
    (actor : BoardUnit) :
  event'.target = event.target
  := h.uid? .target htarget actor

/-- If the target is mentioned, it is the same unit. -/
theorem targetUnit?_eq (h : event.Alike mentions event') (htarget : mentions .target)
    (b : Battle) (actor : BoardUnit) :
  event'.targetUnit? b = event.targetUnit? b
  := by
  rw [Event.targetUnit?, Event.targetUnit?, h.target_eq htarget actor, h.unit?_eq]

end Event.Alike

variable {event event' : Event} (rules : Ruleset) (b : Battle) (actor : BoardUnit)

mutual

/-- A test holds on both of two events that are alike to it, or on neither. -/
theorem BranchTest.holds_alike (test : BranchTest)
    (h : event.Alike (fun ref => test.mentions ref) event') :
  test.holds rules b actor event' = test.holds rules b actor event
  := by
  cases test with
  | adjacentToSelf unit =>
    have href : (BranchTest.adjacentToSelf unit).mentions unit := by simp [BranchTest.mentions]
    rw [BranchTest.holds, BranchTest.holds, h.resolve?_eq href]
  | targetHasNegativeStatus =>
    rw [BranchTest.holds, BranchTest.holds, h.targetUnit?_eq rfl b actor]
  | countAtLeast filter minimum => rfl
  | all tests =>
    rw [BranchTest.holds, BranchTest.holds]
    apply testsHold_alike tests
    apply h.mono
    intro ref href
    rwa [BranchTest.mentions]
  | unknown => rfl

/-- Tests hold on both of two events that are alike to them, or on neither. -/
theorem testsHold_alike (tests : List BranchTest)
    (h : event.Alike (fun ref => testsMention ref tests) event') :
  testsHold rules b actor event' tests = testsHold rules b actor event tests
  := by
  cases tests with
  | nil => rfl
  | cons test rest =>
    have htest : event.Alike (fun ref => test.mentions ref) event' := by
      apply h.mono
      intro ref href
      rw [testsMention, href, Bool.true_or]
    have hrest : event.Alike (fun ref => testsMention ref rest) event' := by
      apply h.mono
      intro ref href
      rw [testsMention, href, Bool.or_true]
    rw [testsHold, testsHold, test.holds_alike htest, testsHold_alike rest hrest]

end

mutual

/-- A condition holds on both of two events that are alike to it, or on neither. -/
theorem Condition.holds_alike (condition : Condition)
    (h : event.Alike (fun ref => condition.mentions ref) event') :
  condition.holds rules b actor event' = condition.holds rules b actor event
  := by
  cases condition with
  | moverIsEnemy =>
    have hmover : event'.mover = event.mover := h.uid? .mover rfl actor
    rw [Condition.holds, Condition.holds, hmover, h.unit?_eq]
  | targetName beginning =>
    rw [Condition.holds, Condition.holds, h.targetUnit?_eq rfl b actor]
  | targetIsEnemy => rw [Condition.holds, Condition.holds, h.targetUnit?_eq rfl b actor]
  | targetFaction faction =>
    rw [Condition.holds, Condition.holds, h.targetUnit?_eq rfl b actor]
  | targetHasClass className =>
    rw [Condition.holds, Condition.holds, h.targetUnit?_eq rfl b actor]
  | targetSlowerThanSelf =>
    rw [Condition.holds, Condition.holds, h.targetUnit?_eq rfl b actor]
  | selfIsSource =>
    have hsource : event'.source = event.source := h.uid? .source rfl actor
    rw [Condition.holds, Condition.holds, hsource]
  | all conditions =>
    rw [Condition.holds, Condition.holds]
    apply conditionsHold_alike conditions
    apply h.mono
    intro ref href
    rwa [Condition.mentions]
  | _ => rfl

/-- Conditions hold on both of two events that are alike to them, or on neither. -/
theorem conditionsHold_alike (conditions : List Condition)
    (h : event.Alike (fun ref => conditionsMention ref conditions) event') :
  conditionsHold rules b actor event' conditions = conditionsHold rules b actor event conditions
  := by
  cases conditions with
  | nil => rfl
  | cons condition rest =>
    have hcondition : event.Alike (fun ref => condition.mentions ref) event' := by
      apply h.mono
      intro ref href
      rw [conditionsMention, href, Bool.true_or]
    have hrest : event.Alike (fun ref => conditionsMention ref rest) event' := by
      apply h.mono
      intro ref href
      rw [conditionsMention, href, Bool.or_true]
    rw [conditionsHold, conditionsHold, condition.holds_alike hcondition,
      conditionsHold_alike rest hrest]

end

/-- Whether the condition of a rule block depends on a reference. -/
def RuleBlock.judges (ref : UnitRef) (block : RuleBlock) : Bool :=
  block.condition.any (·.mentions ref)

/-- A rule block runs on both of two events that are alike to its condition, or on
neither. -/
theorem RuleBlock.applies_alike (block : RuleBlock)
    (h : event.Alike (fun ref => block.judges ref) event') :
  block.applies rules b actor event' = block.applies rules b actor event
  := by
  rw [RuleBlock.applies, RuleBlock.applies]
  cases hcondition : block.condition with
  | none => rfl
  | some condition =>
    rw [Option.all_some, Option.all_some]
    apply condition.holds_alike
    apply h.mono
    intro ref href
    rwa [RuleBlock.judges, hcondition]

end CardBattle
