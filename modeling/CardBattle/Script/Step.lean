import CardBattle.AttackModifier
import CardBattle.Buff
import CardBattle.Reach
import CardBattle.Script.Filter

/-!
# Scripts

A script is a list of steps.  The steps of a script name the units they act on by what
they are to the script: the unit that runs it, the target, the mover or the source of the
event that started it, or the unit with a given uid.  `Step.mentions` tells whether a step
depends on such a reference.
-/

namespace CardBattle

/-- A unit named in a script. -/
inductive UnitRef
  /-- The unit that runs the script. -/
  | self
  | target
  | mover
  | source
  | uid (number : UInt32)
deriving DecidableEq

/-- What decides which branch of a script is run. -/
inductive BranchTest
  | adjacentToSelf (unit : UnitRef)
  | targetHasNegativeStatus
  | countAtLeast (filter : UnitFilter) (minimum : UInt64)
  | all (tests : List BranchTest)
  /-- A test that is not known, which fails. -/
  | unknown

/-- One step of a script. -/
inductive Step
  | damage (whom : UnitRef) (amount : Int32)
  | heal (whom : UnitRef) (amount : Int32)
  | healAllies (amount : Int32) (filter : UnitFilter)
  | modifyStat (whom : UnitRef) (stat : Stat) (delta : Int32) (duration : Duration)
  | applyStatus (whom : UnitRef) (status : String) (detail : Option String)
  | removeStatus (whom : UnitRef) (status : String)
  /-- Removes the first of the negative statuses. -/
  | removeNegativeStatus (whom : UnitRef)
  /-- Prevents active abilities for this turn and the given number of turns after it. -/
  | preventActive (whom : UnitRef) (cycles : UInt32)
  | grantImmunity (filter : UnitFilter) (statuses : List String)
  | setFlag (whom : UnitRef) (flag : String) (value : Bool)
  | boostAttack (whom : UnitRef) (boost : Boost)
  | draw (count : UInt32)
  | discard (count : UInt32)
  | peekHand (count : UInt32)
  | swapPositions (first second : UnitRef)
  | grantReach (whom : UnitRef) (reach : Reach)
  | grantUntargetable (whom : UnitRef)
  | branch (test : BranchTest) (thenSteps elseSteps : List Step)
  /-- Asks for a choice of the player, which is left to be made later. -/
  | revealHandCard (count : UInt32)
  /-- Asks for a choice of the player, which is left to be made later. -/
  | returnHandCard (count : UInt32)
  /-- A step that is not known, which does nothing. -/
  | unknown

mutual

/-- Whether a test depends on a reference. -/
def BranchTest.mentions (ref : UnitRef) : BranchTest → Bool
  | .adjacentToSelf unit => unit = ref
  | .targetHasNegativeStatus => ref = .target
  | .countAtLeast _ _ => false
  | .all tests => testsMention ref tests
  | .unknown => false

/-- Whether one of the tests depends on a reference. -/
def testsMention (ref : UnitRef) : List BranchTest → Bool
  | [] => false
  | test :: rest => test.mentions ref || testsMention ref rest

end

mutual

/-- Whether a step, or a step of one of its branches, depends on a reference. -/
def Step.mentions (ref : UnitRef) : Step → Bool
  | .damage whom _ => whom = ref
  | .heal whom _ => whom = ref
  | .healAllies _ _ => false
  | .modifyStat whom _ _ _ => whom = ref
  | .applyStatus whom _ _ => whom = ref
  | .removeStatus whom _ => whom = ref
  | .removeNegativeStatus whom => whom = ref
  | .preventActive whom _ => whom = ref
  | .grantImmunity _ _ => false
  | .setFlag whom _ _ => whom = ref
  | .boostAttack whom _ => whom = ref
  | .draw _ => false
  | .discard _ => false
  | .peekHand _ => false
  | .swapPositions first second => first = ref || second = ref
  | .grantReach whom _ => whom = ref
  | .grantUntargetable whom => whom = ref
  | .branch test thenSteps elseSteps =>
      test.mentions ref || scriptMentions ref thenSteps || scriptMentions ref elseSteps
  | .revealHandCard _ => false
  | .returnHandCard _ => false
  | .unknown => false

/-- Whether a step of a script depends on a reference. -/
def scriptMentions (ref : UnitRef) : List Step → Bool
  | [] => false
  | step :: rest => step.mentions ref || scriptMentions ref rest

end

end CardBattle
