import CardBattle.Cascade.Refresh
import CardBattle.Proofs.Cascade.Form
import Mathlib.Data.List.Forall2

/-!
# Chance in cascades

Chance enters a battle at one place only: the cards that a peek at a hand shows are sampled
from the seed.  Two battles are twins if nothing tells them apart but their seeds and the
names in the lines about peeks (`Battle.Twins`).  No unit, no condition and no choice depends
on either, so every change keeps twins twins, and it fails for both or for none
(`Change.Blind`).  The proof goes along the recursion of the cascade: every script is blind if
the broadcasts within it are (`runScript_blind`), so a broadcast is if the broadcasts nested in
it are, and these are nested less deep (`emit_blind`).
-/

namespace CardBattle

open Change

/-- The line about a peek of a player at the hand of the opponent. -/
def Ruleset.peekLine (rules : Ruleset) (seed : UInt64) (player : UInt8) (hand : List String)
    (count : Nat) : String :=
  playerText player ++ " sbircia la mano di " ++ playerText (opponentOf player) ++ ": "
    ++ ", ".intercalate (rules.peek seed hand count)

/-- The seed of the sample that a peek takes in a battle of the given seed, in a turn and
behind so many lines. -/
def peekSeedOf (seed : UInt64) (turn : UInt32) (place : Nat) : UInt64 :=
  seed ^^^ (turn.toUInt64 <<< 32) ^^^ UInt64.ofNat place

/-- The lines are the same, or they are about one peek in battles of the two seeds. -/
inductive LineTwins (rules : Ruleset) (seed seed' : UInt64) : String → String → Prop
  | same (line : String) : LineTwins rules seed seed' line line
  | peek (player : UInt8) (turn : UInt32) (place : Nat) (hand : List String) (count : Nat) :
      LineTwins rules seed seed'
        (rules.peekLine (peekSeedOf seed turn place) player hand count)
        (rules.peekLine (peekSeedOf seed' turn place) player hand count)

/-- The battles are of the two seeds, and they differ in nothing else but the names in lines
about peeks. -/
structure Battle.Twins (rules : Ruleset) (seed seed' : UInt64) (b b' : Battle) : Prop where
  seed_left : b.seed = seed
  eq : b' = { b with seed := seed', log := b'.log }
  log : List.Forall₂ (LineTwins rules seed seed') b.log b'.log

variable {rules : Ruleset} {seed seed' : UInt64}

theorem LineTwins.forall_same (lines : List String) :
  List.Forall₂ (LineTwins rules seed seed') lines lines
  := List.forall₂_same.mpr fun line _ => .same line

namespace Battle.Twins

variable {b b' : Battle} (h : b.Twins rules seed seed' b')

/-- A battle and the same one of another seed are twins. -/
theorem reseed (rules : Ruleset) (b : Battle) (seed' : UInt64) :
  b.Twins rules b.seed seed' { b with seed := seed' }
  := ⟨rfl, rfl, LineTwins.forall_same b.log⟩

include h

theorem seed_right :
  b'.seed = seed'
  := by rw [h.eq]

theorem turn :
  b'.turn = b.turn
  := by rw [h.eq]

theorem activePlayer :
  b'.activePlayer = b.activePlayer
  := by rw [h.eq]

theorem firstAttacker :
  b'.firstAttacker = b.firstAttacker
  := by rw [h.eq]

theorem side0 :
  b'.side0 = b.side0
  := by rw [h.eq]

theorem side1 :
  b'.side1 = b.side1
  := by rw [h.eq]

theorem uids :
  b'.uids = b.uids
  := by rw [h.eq]

theorem units :
  b'.units = b.units
  := by rw [Battle.units, Battle.units, h.side0, h.side1]

theorem find? (uid : Uid) :
  b'.find? uid = b.find? uid
  := by rw [Battle.find?, Battle.find?, h.units]

theorem side? (player : UInt8) :
  b'.side? player = b.side? player
  := by rw [Battle.side?, Battle.side?, h.side0, h.side1]

/-- Twin lines are noted. -/
theorem note {line line' : String} (hline : LineTwins rules seed seed' line line') :
  (b.record line).Twins rules seed seed' (b'.record line')
  := by
  constructor
  · exact h.seed_left
  · rw [Battle.record, Battle.record, h.eq]
  · exact List.rel_append h.log (.cons hline .nil)

theorem record (line : String) :
  (b.record line).Twins rules seed seed' (b'.record line)
  := h.note (.same line)

/-- Changes of the same sides keep twins twins. -/
theorem setSides (s t : Side) :
  { b with side0 := s, side1 := t }.Twins rules seed seed' { b' with side0 := s, side1 := t }
  := by
  constructor
  · exact h.seed_left
  · rw [h.eq]
  · exact h.log

theorem setSide (player : UInt8) (s : Side) :
  (b.setSide player s).Twins rules seed seed' (b'.setSide player s)
  := by
  have h0 := h.setSides s b.side1
  have h1 := h.setSides b.side0 s
  rw [Battle.setSide, Battle.setSide]
  split
  · rw [h.side1]
    exact h0
  · split
    · rw [h.side0]
      exact h1
    · exact h

theorem setBoard (player : UInt8) (board : Board) :
  (b.setBoard player board).Twins rules seed seed' (b'.setBoard player board)
  := by
  have h0 := h.setSides { b.side0 with board } b.side1
  have h1 := h.setSides b.side0 { b.side1 with board }
  rw [Battle.setBoard, Battle.setBoard, h.side0, h.side1]
  split
  · exact h0
  · split
    · exact h1
    · exact h

theorem replace (u : BoardUnit) :
  (b.replace u).Twins rules seed seed' (b'.replace u)
  := by
  have h0 := h.setSides { b.side0 with board := b.side0.board.setUnit u.uid (some u) } b.side1
  have h1 := h.setSides b.side0 { b.side1 with board := b.side1.board.setUnit u.uid (some u) }
  rw [Battle.replace, Battle.replace, h.side0, h.side1]
  split
  · exact h0
  · exact h1

theorem foldl_record {α : Type} (line : α → String) (l : List α) :
  (l.foldl (fun b a => b.record (line a)) b).Twins rules seed seed'
    (l.foldl (fun b a => b.record (line a)) b')
  := by
  induction l generalizing b b' with
  | nil => exact h
  | cons a rest ih => exact ih (h.record (line a))

/-- A unit is treated in both of two twins. -/
theorem treated (u : BoardUnit) (o : Outcome) :
  (o.apply rules u b).Twins rules seed seed' (o.apply rules u b')
  := by
  have hunit : (o.unit?.elim b b.replace).Twins rules seed seed' (o.unit?.elim b' b'.replace) := by
    cases o.unit? with
    | none => exact h
    | some v => exact h.replace v
  rw [Outcome.apply, Outcome.apply]
  cases o.remark? with
  | none => exact hunit
  | some remark => exact hunit.record _

/-! ### What is judged alike in twins -/

theorem resolve? (ref : UnitRef) (actor : BoardUnit) (event : Event) :
  ref.resolve? b' actor event = ref.resolve? b actor event
  := by
  have hfind : b'.find? = b.find? := funext h.find?
  rw [UnitRef.resolve?, UnitRef.resolve?, hfind]

theorem unit? (event : Event) (uid : Uid) :
  event.unit? b' uid = event.unit? b uid
  := by rw [Event.unit?, Event.unit?, h.find?]

theorem targetUnit? (event : Event) :
  event.targetUnit? b' = event.targetUnit? b
  := by
  have hunit : event.unit? b' = event.unit? b := funext (h.unit? event)
  rw [Event.targetUnit?, Event.targetUnit?, hunit]

theorem select (filter : UnitFilter) (anchor : BoardUnit) :
  filter.select rules b' anchor = filter.select rules b anchor
  := by rw [UnitFilter.select, UnitFilter.select, h.units]

theorem admitsAtLeast (filter : UnitFilter) (anchor : BoardUnit) (minimum : UInt64) :
  filter.admitsAtLeast rules b' anchor minimum = filter.admitsAtLeast rules b anchor minimum
  := by rw [UnitFilter.admitsAtLeast, UnitFilter.admitsAtLeast, h.select]

theorem recipients (event : Event) :
  event.recipients b' = event.recipients b
  := by
  have hinsert : ∀ gone uids, insertUid b' gone uids = insertUid b gone uids := by
    intro gone uids
    induction uids with
    | nil => rfl
    | cons uid rest ih => rw [insertUid, insertUid, h.find?, ih]
  rw [Event.recipients, Event.recipients, h.units]
  cases event.departed? with
  | none => rfl
  | some gone => apply hinsert

theorem lacks :
  b'.lacks = b.lacks
  := by rw [Battle.lacks, Battle.lacks, h.units]

end Battle.Twins

section

variable {b b' : Battle} {actor : BoardUnit} {event : Event}

mutual

/-- A test holds in both of two twins, or in neither. -/
theorem BranchTest.holds_twins (h : b.Twins rules seed seed' b') (test : BranchTest) :
  test.holds rules b' actor event = test.holds rules b actor event
  := by
  cases test with
  | adjacentToSelf ref => rw [BranchTest.holds, BranchTest.holds, h.find?, h.resolve?]
  | targetHasNegativeStatus => rw [BranchTest.holds, BranchTest.holds, h.targetUnit?]
  | countAtLeast filter minimum => rw [BranchTest.holds, BranchTest.holds, h.admitsAtLeast]
  | all tests => rw [BranchTest.holds, BranchTest.holds, testsHold_twins h tests]
  | unknown => rfl

/-- Tests hold in both of two twins, or in neither. -/
theorem testsHold_twins (h : b.Twins rules seed seed' b') (tests : List BranchTest) :
  testsHold rules b' actor event tests = testsHold rules b actor event tests
  := by
  cases tests with
  | nil => rfl
  | cons test rest =>
    rw [testsHold, testsHold, BranchTest.holds_twins h test, testsHold_twins h rest]

end

mutual

/-- A condition holds in both of two twins, or in neither. -/
theorem Condition.holds_twins (h : b.Twins rules seed seed' b') (condition : Condition) :
  condition.holds rules b' actor event = condition.holds rules b actor event
  := by
  have hunit : event.unit? b' = event.unit? b := funext (h.unit? event)
  cases condition with
  | selfZone lane => rfl
  | allyNameInPlay beginning => rw [Condition.holds, Condition.holds, h.units]
  | adjacentAlly faction => rw [Condition.holds, Condition.holds, h.units]
  | moverIsEnemy => rw [Condition.holds, Condition.holds, hunit]
  | targetName beginning => rw [Condition.holds, Condition.holds, h.targetUnit?]
  | targetIsEnemy => rw [Condition.holds, Condition.holds, h.targetUnit?]
  | targetFaction faction => rw [Condition.holds, Condition.holds, h.targetUnit?]
  | targetHasClass className => rw [Condition.holds, Condition.holds, h.targetUnit?]
  | targetSlowerThanSelf => rw [Condition.holds, Condition.holds, h.targetUnit?]
  | selfFirstAttacker => rw [Condition.holds, Condition.holds, h.firstAttacker]
  | selfIsSource => rfl
  | selfFlag flag => rfl
  | countAtLeast filter minimum => rw [Condition.holds, Condition.holds, h.admitsAtLeast]
  | all conditions => rw [Condition.holds, Condition.holds, conditionsHold_twins h conditions]
  | unknown => rfl

/-- Conditions hold in both of two twins, or in neither. -/
theorem conditionsHold_twins (h : b.Twins rules seed seed' b')
    (conditions : List Condition) :
  conditionsHold rules b' actor event conditions = conditionsHold rules b actor event conditions
  := by
  cases conditions with
  | nil => rfl
  | cons condition rest =>
    rw [conditionsHold, conditionsHold, Condition.holds_twins h condition,
      conditionsHold_twins h rest]

end

/-- A rule block runs in both of two twins, or in neither. -/
theorem RuleBlock.applies_twins (h : b.Twins rules seed seed' b') (block : RuleBlock) :
  block.applies rules b' actor event = block.applies rules b actor event
  := by
  have hholds : (fun condition : Condition => condition.holds rules b' actor event)
      = fun condition => condition.holds rules b actor event :=
    funext (Condition.holds_twins h)
  rw [RuleBlock.applies, RuleBlock.applies, hholds]

end

/-! ### Blind changes -/

section

variable (rules : Ruleset) (seed seed' : UInt64) {ε : Type}

/-- Both changes have results, which are twins and are reported alike, or both fail with the
same error. -/
abbrev Coincide : Except ε (Battle × Report) → Except ε (Battle × Report) → Prop :=
  Concurs fun x y => x.1.Twins rules seed seed' y.1 ∧ y.2 = x.2

/-- The change does not depend on chance: it does the same to twins. -/
def Change.Blind (c : Change) : Prop :=
  ∀ b b', b.Twins rules seed seed' b' → Coincide rules seed seed' (c b) (c b')

end

variable {emit : Event → Change} {actor : BoardUnit} {event : Event} {b b' : Battle}

theorem coincide_report (h : b.Twins rules seed seed' b') (r : Report) :
  Coincide rules seed seed' (report r b) (report r b')
  := .ok ⟨h, rfl⟩

namespace Change.Blind

theorem report (r : Report) :
  (report r).Blind rules seed seed'
  := fun _ _ h => coincide_report h r

theorem done :
  done.Blind rules seed seed'
  := fun _ _ h => .ok ⟨h, rfl⟩

theorem andThen {first second : Change} (hfirst : first.Blind rules seed seed')
    (hsecond : second.Blind rules seed seed') :
  (first.andThen second).Blind rules seed seed'
  := by
  intro b b' h
  apply (hfirst b b' h).bind
  rintro ⟨m, r⟩ ⟨m', r'⟩ ⟨hm, rfl⟩
  apply (hsecond m m' hm).bind
  rintro ⟨n, s⟩ ⟨n', s'⟩ ⟨hn, rfl⟩
  exact .ok ⟨hn, rfl⟩

theorem forEach {α : Type} {f : α → Change} {l : List α}
    (hf : ∀ a ∈ l, (f a).Blind rules seed seed') :
  (forEach f l).Blind rules seed seed'
  := by
  induction l with
  | nil => exact .done
  | cons a rest ih =>
    apply (hf a List.mem_cons_self).andThen
    apply ih
    intro c hc
    apply hf c (List.mem_cons_of_mem a hc)

end Change.Blind

/-! ### Sweeps -/

/-- The same unit falls in twins, and what is left are twins. -/
theorem removeFallen?_twins (h : b.Twins rules seed seed' b') :
  Option.Rel (fun x y => y.1 = x.1 ∧ y.2.1 = x.2.1 ∧ x.2.2.Twins rules seed seed' y.2.2)
    b.removeFallen? b'.removeFallen?
  := by
  have hside : b'.side? = b.side? := funext h.side?
  rw [Battle.removeFallen?, Battle.removeFallen?, h.units, hside]
  cases b.units.find? fun u => !u.isAlive with
  | none => exact .none
  | some fallen =>
    simp only [Option.bind_eq_bind, Option.bind_some]
    cases b.side? fallen.owner with
    | none => exact .none
    | some side =>
      simp only [Option.bind_some]
      cases side.board.take? fallen.uid with
      | none => exact .none
      | some taken => exact .some ⟨rfl, rfl, (h.setSide _ _).record _⟩

section

variable (hemit : ∀ event, (emit event).Blind rules seed seed')

include hemit

theorem sweepUpTo_blind (source : Option Uid) (depth : UInt32) (n : Nat) :
  (sweepUpTo emit source depth n).Blind rules seed seed'
  := by
  induction n with
  | zero => exact .done
  | succ n ih =>
    intro b b' h
    have hremoved := removeFallen?_twins h
    unfold sweepUpTo
    generalize b.removeFallen? = removed at hremoved
    generalize b'.removeFallen? = removed' at hremoved
    cases hremoved with
    | none => exact .ok ⟨h, rfl⟩
    | @some x y hxy =>
      obtain ⟨owner, gone, m⟩ := x
      obtain ⟨_, _, m'⟩ := y
      obtain ⟨rfl, rfl, hm⟩ := hxy
      apply Change.Blind.andThen (.forEach fun trigger _ => hemit _) ih m m' hm

theorem sweepWith_blind (source : Option Uid) (depth : UInt32) :
  (sweepWith emit source depth).Blind rules seed seed'
  := by
  intro b b' h
  rw [sweepWith, sweepWith, h.units]
  apply sweepUpTo_blind hemit source depth _ b b' h

theorem sweepAfter_blind (actor : BoardUnit) (event : Event) :
  (sweepAfter emit actor event).Blind rules seed seed'
  := by
  intro b b' h
  apply concurs_bind
  intro depth _
  apply sweepWith_blind hemit _ depth b b' h

end

/-! ### Steps -/

theorem onUnit_blind (ref : UnitRef) {act : BoardUnit → Change}
    (hact : ∀ u, (act u).Blind rules seed seed') :
  (onUnit actor event ref act).Blind rules seed seed'
  := by
  intro b b' h
  rw [onUnit, onUnit, h.resolve?]
  split
  · next u _ => apply hact u b b' h
  · apply coincide_report h

theorem stepWait_blind (choice : PendingChoice) (line : String) :
  (stepWait actor choice line).Blind rules seed seed'
  := by
  intro b b' h
  apply coincide_report (h.record _)

theorem changeEach_concurs (f : BoardUnit → Except Fault BoardUnit) (uids : List Uid)
    {b b' : Battle} (h : b.Twins rules seed seed' b') :
  Concurs (·.Twins rules seed seed' ·) (b.changeEach f uids) (b'.changeEach f uids)
  := by
  induction uids generalizing b b' with
  | nil => exact .ok h
  | cons uid rest ih =>
    rw [Battle.changeEach, Battle.changeEach, h.find?]
    split
    · apply concurs_bind
      intro v _
      apply ih (h.replace v)
    · apply ih h

theorem changeAll_concurs (f : BoardUnit → Except Fault BoardUnit)
    (h : b.Twins rules seed seed' b') :
  Concurs (·.Twins rules seed seed' ·) (b.changeAll f) (b'.changeAll f)
  := by
  rw [Battle.changeAll, Battle.changeAll, h.side0, h.side1]
  apply concurs_bind
  intro board0 _
  apply concurs_bind
  intro board1 _
  exact .ok (h.setSides _ _)

theorem putBack_concurs (h : b.Twins rules seed seed' b') (player : UInt8) (board : Board)
    (u : BoardUnit) :
  Concurs (·.Twins rules seed seed' ·) (b.putBack player board u) (b'.putBack player board u)
  := by
  apply concurs_bind
  intro after _
  exact .ok (h.setBoard player after)

theorem Tending.runEach_blind (filter : UnitFilter) (t : Tending) (remark? : Option String) :
  (t.runEach rules actor filter remark?).Blind rules seed seed'
  := by
  intro b b' h
  rw [runEach, runEach, h.select, h.turn]
  apply (changeEach_concurs _ _ h).bind
  intro m m' hm
  apply coincide_report (hm.treated actor _)

theorem Dealing.run_blind (d : Dealing) :
  (d.run actor).Blind rules seed seed'
  := by
  intro b b' h
  rw [run, run, h.side?]
  split
  · apply coincide_report h
  · apply coincide_report ((h.setSide _ _).foldl_record _ _)

/-- A peek takes its sample from the seed, but it only shows the names in its line. -/
theorem stepPeekHand_blind (count : UInt32) :
  (stepPeekHand rules actor count).Blind rules seed seed'
  := by
  intro b b' h
  have hplace : b'.log.length = b.log.length := h.log.length_eq.symm
  have hleft : b.peekSeed = peekSeedOf seed b.turn b.log.length := by
    rw [Battle.peekSeed, h.seed_left, peekSeedOf]
  have hright : b'.peekSeed = peekSeedOf seed' b.turn b.log.length := by
    rw [Battle.peekSeed, h.seed_right, h.turn, hplace, peekSeedOf]
  rw [stepPeekHand, stepPeekHand]
  dsimp only
  rw [h.side?, hleft, hright]
  split
  · apply coincide_report h
  · next side _ =>
    apply coincide_report
    apply h.note
    apply LineTwins.peek

theorem exchange_blind (player : UInt8) (a : BoardUnit) (other : Uid) (board : Board) :
  (exchange rules player a other board).Blind rules seed seed'
  := by
  intro b b' h
  rw [exchange, exchange]
  split
  · apply (putBack_concurs h player board a).bind
    intro m m' hm
    apply coincide_report hm
  · apply concurs_bind
    intro board' _
    apply (putBack_concurs h player board' _).bind
    intro m m' hm
    apply coincide_report (hm.record _)

theorem stepSwap_blind (first second : UnitRef) :
  (stepSwap rules actor event first second).Blind rules seed seed'
  := by
  intro b b' h
  have hside : b'.side? = b.side? := funext h.side?
  rw [stepSwap, stepSwap, h.resolve?, h.resolve?, hside]
  split
  · split
    · apply coincide_report h
    · split
      · apply coincide_report h
      · split
        · apply coincide_report h
        · apply exchange_blind _ _ _ _ b b' h
  · apply coincide_report h

section

variable (hemit : ∀ event, (emit event).Blind rules seed seed') (actor : BoardUnit) (event : Event)

include hemit

theorem Treatment.close_blind (t : Treatment) :
  (t.close emit actor event).Blind rules seed seed'
  := by
  intro b b' h
  rw [close, close]
  split
  · exact (Change.Blind.report .ran).andThen (sweepAfter_blind hemit actor event) b b' h
  · apply coincide_report h

/-- A step that does not branch does the same to twins if the broadcasts within it do. -/
theorem Form.run_blind (form : Form) :
  (form.run rules emit actor event).Blind rules seed seed'
  := by
  cases form with
  | unit whom t =>
    apply onUnit_blind
    intro u b b' h
    rw [Treatment.run, Treatment.run, h.turn]
    apply concurs_bind
    intro o _
    exact t.close_blind hemit actor event _ _ (h.treated u o)
  | each filter t remark? => exact t.runEach_blind filter remark?
  | cards d => exact d.run_blind
  | peek count => exact stepPeekHand_blind count
  | swap first second => exact stepSwap_blind first second
  | wait choice hplayer => exact stepWait_blind _ _
  | ignored => exact Change.Blind.report _

/-- A script does the same to twins if the broadcasts within it do. -/
theorem runScript_blind (script : List Step) :
  (runScript rules emit actor event script).Blind rules seed seed'
  := by
  induction script using scriptInduction with
  | nil =>
    rw [runScript]
    exact .done
  | form step form rest hform ih =>
    rw [runScript, runStep_form hform]
    exact (form.run_blind hemit actor event).andThen ih
  | branch test thenSteps elseSteps rest ihthen ihelse ih =>
    rw [runScript]
    apply Change.Blind.andThen _ ih
    intro b b' h
    rw [runStep_branch, runStep_branch, test.holds_twins h]
    split
    · exact (Change.Blind.report .ran).andThen ihthen b b' h
    · exact (Change.Blind.report .ran).andThen ihelse b b' h

end

/-! ### Broadcasts -/

section

variable (hemit : ∀ event, (emit event).Blind rules seed seed')

include hemit

theorem runBlock_blind (event : Event) (uid : Uid) (departed : Option BoardUnit)
    (block : RuleBlock) :
  (runBlock rules emit event uid departed block).Blind rules seed seed'
  := by
  intro b b' h
  rw [runBlock, runBlock, h.find?]
  split
  · exact .ok ⟨h, rfl⟩
  · next actor _ =>
    rw [block.applies_twins h]
    split
    · apply runScript_blind hemit actor event _ b b' h
    · exact .ok ⟨h, rfl⟩

theorem respond_blind (event : Event) (uid : Uid) :
  (respond rules emit event uid).Blind rules seed seed'
  := by
  intro b b' h
  rw [respond, respond, h.find?]
  split
  · split
    · apply Change.Blind.forEach _ b b' h
      intro block _
      apply runBlock_blind hemit
    · exact .ok ⟨h, rfl⟩
  · split
    · apply Change.Blind.forEach _ b b' h
      intro block _
      apply runBlock_blind hemit
    · exact .ok ⟨h, rfl⟩

theorem broadcast_blind (event : Event) :
  (broadcast rules emit event).Blind rules seed seed'
  := by
  intro b b' h
  rw [broadcast, broadcast, h.recipients]
  apply Change.Blind.forEach _ b b' h
  intro uid _
  apply respond_blind hemit

end

namespace Ruleset

theorem emitWithin_blind (n : Nat) (event : Event) :
  (rules.emitWithin n event).Blind rules seed seed'
  := by
  induction n generalizing event with
  | zero => exact .done
  | succ n ih => apply broadcast_blind ih

/-- A broadcast does the same to twins. -/
theorem emit_blind (event : Event) :
  (rules.emit event).Blind rules seed seed'
  := emitWithin_blind _ event

theorem sweep_blind (source : Option Uid) (depth : UInt32) :
  (rules.sweep source depth).Blind rules seed seed'
  := sweepWith_blind emit_blind source depth

theorem runActivation_blind (uid : Uid) (ability : Ability) (event : Event) :
  (rules.runActivation uid ability event).Blind rules seed seed'
  := by
  apply Change.Blind.forEach
  intro block _
  apply runBlock_blind emit_blind

theorem refresh_blind (player : UInt8) (first second : Trigger) :
  (rules.refresh player first second).Blind rules seed seed'
  := by
  intro b b' h
  rw [refresh, refresh, h.lacks]
  apply concurs_bind
  intro lacks _
  apply (changeAll_concurs _ h).bind
  intro m₁ m₁' h₁
  apply (Change.Blind.forEach (fun trigger _ => emit_blind _) m₁ m₁' h₁).bind
  rintro ⟨m₂, r⟩ ⟨m₂', _⟩ ⟨h₂, rfl⟩
  apply (changeAll_concurs _ h₂).bind
  intro m₃ m₃' h₃
  apply (sweep_blind none 1 m₃ m₃' h₃).bind
  rintro ⟨m₄, s⟩ ⟨m₄', _⟩ ⟨h₄, rfl⟩
  exact .ok ⟨h₄, rfl⟩

end Ruleset

end CardBattle
