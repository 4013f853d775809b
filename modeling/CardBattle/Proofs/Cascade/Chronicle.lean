import CardBattle.Cascade.Refresh
import CardBattle.Proofs.Cascade.Form

/-!
# The log and the pending choices

A pending choice is recorded twice: as a line of the log, which is part of the battle, and in
the report, which is added up from those of the steps.  The two records agree: whatever a
cascade does, the choices that it reports are those that its new lines are about, in the same
order (`Change.Faithful`).  This is so for every step and for changes one after another, and
hence for scripts, events, sweeps and refreshes.
-/

namespace CardBattle

open Change

/-- The log has grown at its end, and the choices are those that its new lines are about. -/
def Battle.Tells (choices : List PendingChoice) (b b' : Battle) : Prop :=
  ∃ lines, b'.log = b.log ++ lines ∧ choices = lines.filterMap PendingChoice.ofLine?

/-- Wherever the change has a result, it reports the choices that the new lines of the log are
about. -/
def Change.Faithful (c : Change) : Prop :=
  ∀ b b' r, c b = .ok (b', r) → b.Tells r.pending b'

namespace Battle

variable {b m b' : Battle} {choices choices' : List PendingChoice}

theorem tells_of_log_eq (h : b'.log = b.log) :
  b.Tells [] b'
  := ⟨[], by rw [h, List.append_nil], rfl⟩

theorem Tells.trans (h : b.Tells choices m) (h' : m.Tells choices' b') :
  b.Tells (choices ++ choices') b'
  := by
  obtain ⟨lines, hlog, rfl⟩ := h
  obtain ⟨lines', hlog', rfl⟩ := h'
  use lines ++ lines'
  rw [hlog', hlog, List.append_assoc, List.filterMap_append]
  exact ⟨rfl, rfl⟩

/-- A line about something else tells of no choices. -/
theorem tells_record {line : String} (h : PendingChoice.ofLine? line = none) :
  b.Tells [] (b.record line)
  := ⟨[line], rfl, by simp [h]⟩

theorem tells_record_line (choice : PendingChoice) :
  b.Tells [choice] (b.record choice.line)
  := ⟨[choice.line], rfl, by simp [PendingChoice.ofLine?_line]⟩

theorem tells_foldl_record {line : String → String} {remarks : List String}
    (h : ∀ remark ∈ remarks, PendingChoice.ofLine? (line remark) = none) :
  b.Tells [] (remarks.foldl (fun b remark => b.record (line remark)) b)
  := by
  induction remarks generalizing b with
  | nil => apply tells_of_log_eq rfl
  | cons remark rest ih =>
    apply (tells_record (h remark List.mem_cons_self)).trans
    apply ih
    intro other hother
    exact h other (List.mem_cons_of_mem remark hother)

theorem Tells.length_le (h : b.Tells choices b') :
  b.log.length ≤ b'.log.length
  := by
  obtain ⟨lines, hlog, -⟩ := h
  rw [hlog, List.length_append]
  omega

/-! ### Changes that leave the log alone -/

theorem log_replace (b : Battle) (u : BoardUnit) :
  (b.replace u).log = b.log
  := by
  rw [replace]
  split
  · rfl
  · rfl

theorem log_setSide (b : Battle) (player : UInt8) (s : Side) :
  (b.setSide player s).log = b.log
  := by
  rw [setSide]
  split
  · rfl
  · split
    · rfl
    · rfl

theorem log_putBack {player : UInt8} {board : Board} {u : BoardUnit}
    (h : b.putBack player board u = .ok b') :
  b'.log = b.log
  := by
  obtain ⟨board', -, h⟩ := bind_eq_ok.mp h
  obtain rfl := pure_eq_ok.mp h
  rw [setBoard]
  split
  · rfl
  · split
    · rfl
    · rfl

theorem log_changeEach {f : BoardUnit → Except Fault BoardUnit} {uids : List Uid}
    (h : b.changeEach f uids = .ok b') :
  b'.log = b.log
  := by
  induction uids generalizing b with
  | nil => rw [← Except.ok.inj h]
  | cons uid rest ih =>
    rw [changeEach] at h
    split at h
    · obtain ⟨v, -, h⟩ := bind_eq_ok.mp h
      rw [ih h, log_replace]
    · apply ih h

theorem log_changeAll {f : BoardUnit → Except Fault BoardUnit} (h : b.changeAll f = .ok b') :
  b'.log = b.log
  := by
  obtain ⟨board0, -, h⟩ := bind_eq_ok.mp h
  obtain ⟨board1, -, h⟩ := bind_eq_ok.mp h
  obtain rfl := pure_eq_ok.mp h
  rfl

/-- A unit that falls leaves a line with its uid. -/
theorem tells_removeFallen {owner : UInt8} {gone : BoardUnit}
    (h : b.removeFallen? = some (owner, gone, b')) :
  b.Tells [] b'
  := by
  simp only [removeFallen?, Option.bind_eq_bind, Option.bind_eq_some_iff, Option.pure_def,
    Option.some.injEq, Prod.mk.injEq] at h
  obtain ⟨fallen, -, side, -, ⟨u, board⟩, -, -, -, rfl⟩ := h
  apply (tells_of_log_eq (log_setSide _ _ _)).trans
  apply tells_record
  apply PendingChoice.ofLine?_of_underscore
  simp

end Battle

/-! ### Changes in sequence -/

namespace Change

variable {first second : Change}

theorem faithful_report {r : Report} (h : r.pending = []) :
  (report r).Faithful
  := by
  intro b b' s hreport
  obtain ⟨rfl, rfl⟩ := Prod.mk.inj (Except.ok.inj hreport)
  rw [h]
  apply Battle.tells_of_log_eq rfl

theorem faithful_done :
  done.Faithful
  := faithful_report rfl

theorem faithful_ran :
  ran.Faithful
  := faithful_report rfl

theorem faithful_skip :
  skip.Faithful
  := faithful_report rfl

/-- Reports are added up as the log grows. -/
theorem Faithful.andThen (hfirst : first.Faithful) (hsecond : second.Faithful) :
  (first.andThen second).Faithful
  := by
  intro b b' t h
  obtain ⟨⟨m, r⟩, hm, h⟩ := bind_eq_ok.mp h
  obtain ⟨⟨m', s⟩, hm', h⟩ := bind_eq_ok.mp h
  obtain ⟨rfl, rfl⟩ := Prod.mk.inj (pure_eq_ok.mp h)
  apply (hfirst _ _ _ hm).trans (hsecond _ _ _ hm')

theorem faithful_forEach {α : Type} {f : α → Change} {l : List α}
    (h : ∀ a ∈ l, (f a).Faithful) :
  (forEach f l).Faithful
  := by
  induction l with
  | nil => apply faithful_done
  | cons a rest ih =>
    apply Faithful.andThen (h a List.mem_cons_self)
    apply ih
    intro c hc
    apply h c (List.mem_cons_of_mem a hc)

end Change

/-- A step that was run writes one line about something else. -/
theorem Battle.tells_ran {b m b' : Battle} {r : Report} {line : String} (hm : m.log = b.log)
    (hline : PendingChoice.ofLine? line = none) (h : Change.ran (m.record line) = .ok (b', r)) :
  b.Tells r.pending b'
  := by
  obtain ⟨rfl, rfl⟩ := Prod.mk.inj (Except.ok.inj h)
  apply (tells_of_log_eq hm).trans (tells_record hline)

/-! ### Steps -/

section

variable {rules : Ruleset} {emit : Event → Change} {actor u : BoardUnit} {event : Event}

open PendingChoice (ofLine?_of_underscore ofLine?_playerText)

theorem onUnit_faithful {ref : UnitRef} {act : BoardUnit → Change}
    (h : ∀ u, (act u).Faithful) :
  (onUnit actor event ref act).Faithful
  := by
  intro b b' r hr
  rw [onUnit] at hr
  split at hr
  · apply h _ _ _ _ hr
  · apply faithful_skip _ _ _ hr

/-- The line about a unit that was treated contains its uid. -/
theorem Outcome.apply_tells (rules : Ruleset) (u : BoardUnit) (o : Outcome) (b : Battle) :
  b.Tells [] (o.apply rules u b)
  := by
  have hunit : b.Tells [] (o.unit?.elim b b.replace) := by
    cases o.unit? with
    | none => apply Battle.tells_of_log_eq rfl
    | some v => apply Battle.tells_of_log_eq (b.log_replace v)
  apply hunit.trans
  rw [Outcome.apply]
  cases o.remark? with
  | none => apply Battle.tells_of_log_eq rfl
  | some remark =>
    apply Battle.tells_record
    apply ofLine?_of_underscore
    simp

theorem Tending.runEach_faithful (filter : UnitFilter) (t : Tending) (remark? : Option String) :
  (t.runEach rules actor filter remark?).Faithful
  := by
  intro b b' r hr
  obtain ⟨m, hm, hr⟩ := bind_eq_ok.mp hr
  apply (Battle.tells_of_log_eq (Battle.log_changeEach hm)).trans
  apply (Outcome.apply_tells rules actor { remark? } m).trans
  exact faithful_ran _ _ _ hr

theorem Dealing.run_faithful (d : Dealing) :
  (d.run actor).Faithful
  := by
  intro b b' r hr
  rw [run] at hr
  split at hr
  · apply faithful_skip _ _ _ hr
  · obtain ⟨rfl, rfl⟩ := Prod.mk.inj (Except.ok.inj hr)
    apply (Battle.tells_of_log_eq (b.log_setSide _ _)).trans
    apply Battle.tells_foldl_record
    intro remark hremark
    exact d.silent hremark actor.owner

theorem stepPeekHand_faithful (count : UInt32) :
  (stepPeekHand rules actor count).Faithful
  := by
  intro b b' r hr
  dsimp only [stepPeekHand] at hr
  split at hr
  · apply faithful_skip _ _ _ hr
  · apply Battle.tells_ran rfl _ hr
    simp only [String.append_assoc]
    apply ofLine?_playerText
    · simp
    · simp

theorem exchange_faithful (player : UInt8) (a : BoardUnit) (other : Uid) (board : Board) :
  (exchange rules player a other board).Faithful
  := by
  intro b b' r hr
  rw [exchange] at hr
  split at hr
  · obtain ⟨m, hm, hr⟩ := bind_eq_ok.mp hr
    obtain ⟨rfl, rfl⟩ := Prod.mk.inj (Except.ok.inj hr)
    apply Battle.tells_of_log_eq (Battle.log_putBack hm)
  · obtain ⟨board', -, hr⟩ := bind_eq_ok.mp hr
    obtain ⟨m, hm, hr⟩ := bind_eq_ok.mp hr
    apply Battle.tells_ran (Battle.log_putBack hm) _ hr
    apply ofLine?_of_underscore
    simp

theorem stepSwap_faithful (first second : UnitRef) :
  (stepSwap rules actor event first second).Faithful
  := by
  intro b b' r hr
  rw [stepSwap] at hr
  split at hr
  · split at hr
    · apply faithful_skip _ _ _ hr
    · split at hr
      · apply faithful_skip _ _ _ hr
      · split at hr
        · apply faithful_skip _ _ _ hr
        · apply exchange_faithful _ _ _ _ _ _ _ hr
  · apply faithful_skip _ _ _ hr

/-- A step that leaves a choice to a player writes the line of this choice. -/
theorem stepWait_faithful (choice : PendingChoice) (h : choice.player = actor.owner) :
  (stepWait actor choice choice.demand).Faithful
  := by
  intro b b' r hr
  obtain ⟨rfl, rfl⟩ := Prod.mk.inj (Except.ok.inj hr)
  rw [← h]
  apply Battle.tells_record_line

/-! ### Sweeps and scripts -/

variable (hemit : ∀ event, (emit event).Faithful)

include hemit

theorem sweepUpTo_faithful (source : Option Uid) (depth : UInt32) (n : Nat) :
  (sweepUpTo emit source depth n).Faithful
  := by
  induction n with
  | zero => apply faithful_done
  | succ n ih =>
    intro b b' r hr
    rw [sweepUpTo] at hr
    dsimp only at hr
    split at hr
    · apply faithful_done _ _ _ hr
    · next owner gone m hremove =>
      apply (Battle.tells_removeFallen hremove).trans
      apply Faithful.andThen _ ih _ _ _ hr
      apply faithful_forEach
      intro trigger _
      apply hemit

theorem sweepWith_faithful (source : Option Uid) (depth : UInt32) :
  (sweepWith emit source depth).Faithful
  := fun b => sweepUpTo_faithful hemit source depth b.units.length b

theorem sweepAfter_faithful :
  (sweepAfter emit actor event).Faithful
  := by
  intro b b' r hr
  obtain ⟨depth, -, hr⟩ := bind_eq_ok.mp hr
  apply sweepWith_faithful hemit _ _ _ _ _ hr

theorem Treatment.close_faithful (t : Treatment) :
  (t.close emit actor event).Faithful
  := by
  intro b b' r hr
  rw [close] at hr
  split at hr
  · exact faithful_ran.andThen (sweepAfter_faithful hemit) _ _ _ hr
  · exact faithful_ran _ _ _ hr

/-- A step that does not branch is faithful if events are. -/
theorem Form.run_faithful (form : Form) :
  (form.run rules emit actor event).Faithful
  := by
  cases form with
  | unit whom t =>
    apply onUnit_faithful
    intro u b b' r hr
    obtain ⟨o, -, hr⟩ := bind_eq_ok.mp hr
    apply (o.apply_tells rules u b).trans
    exact t.close_faithful hemit _ _ _ hr
  | each filter t remark? => exact t.runEach_faithful filter remark?
  | cards d => exact d.run_faithful
  | peek count => exact stepPeekHand_faithful count
  | swap first second => exact stepSwap_faithful first second
  | wait choice hplayer => exact stepWait_faithful _ (hplayer _)
  | ignored => exact faithful_report rfl

/-- A script is faithful if events are. -/
theorem runScript_faithful (script : List Step) :
  (runScript rules emit actor event script).Faithful
  := by
  induction script using scriptInduction with
  | nil =>
    rw [runScript]
    apply faithful_done
  | form step form rest hform ih =>
    rw [runScript, runStep_form hform]
    exact (form.run_faithful hemit).andThen ih
  | branch test thenSteps elseSteps rest ihthen ihelse ih =>
    rw [runScript]
    apply Faithful.andThen _ ih
    intro b b' r hr
    rw [runStep_branch] at hr
    split at hr
    · exact faithful_ran.andThen ihthen _ _ _ hr
    · exact faithful_ran.andThen ihelse _ _ _ hr

/-! ### Events -/

theorem runBlock_faithful (uid : Uid) (departed : Option BoardUnit) (block : RuleBlock) :
  (runBlock rules emit event uid departed block).Faithful
  := by
  intro b b' r hr
  rw [runBlock] at hr
  split at hr
  · apply faithful_done _ _ _ hr
  · split at hr
    · apply runScript_faithful hemit _ _ _ _ hr
    · apply faithful_done _ _ _ hr

theorem runBlocks_faithful (uid : Uid) (departed : Option BoardUnit) (blocks : List RuleBlock) :
  (forEach (runBlock rules emit event uid departed) blocks).Faithful
  := faithful_forEach fun block _ => runBlock_faithful hemit uid departed block

theorem respond_faithful (uid : Uid) :
  (respond rules emit event uid).Faithful
  := by
  intro b b' r hr
  rw [respond] at hr
  split at hr
  · split at hr
    · apply runBlocks_faithful hemit _ _ _ _ _ _ hr
    · apply faithful_done _ _ _ hr
  · split at hr
    · apply runBlocks_faithful hemit _ _ _ _ _ _ hr
    · apply faithful_done _ _ _ hr

theorem broadcast_faithful :
  (broadcast rules emit event).Faithful
  := fun b => faithful_forEach (fun uid _ => respond_faithful hemit uid) b

end

namespace Ruleset

variable (rules : Ruleset)

theorem emitWithin_faithful (n : Nat) (event : Event) :
  (rules.emitWithin n event).Faithful
  := by
  induction n generalizing event with
  | zero => apply faithful_done
  | succ n ih => apply broadcast_faithful ih

/-- What an event reports is what the log tells of it. -/
theorem emit_faithful (event : Event) :
  (rules.emit event).Faithful
  := rules.emitWithin_faithful _ event

theorem sweep_faithful (source : Option Uid) (depth : UInt32) :
  (rules.sweep source depth).Faithful
  := sweepWith_faithful rules.emit_faithful source depth

theorem runActivation_faithful (uid : Uid) (ability : Ability) (event : Event) :
  (rules.runActivation uid ability event).Faithful
  := runBlocks_faithful rules.emit_faithful uid none _

/-- What a refresh reports is what the log tells of it. -/
theorem refresh_faithful (player : UInt8) (first second : Trigger) :
  (rules.refresh player first second).Faithful
  := by
  intro b b' t ht
  obtain ⟨lacks, -, ht⟩ := bind_eq_ok.mp ht
  obtain ⟨m₁, hexpire, ht⟩ := bind_eq_ok.mp ht
  obtain ⟨⟨m₂, r⟩, hannounce, ht⟩ := bind_eq_ok.mp ht
  obtain ⟨m₃, hkeep, ht⟩ := bind_eq_ok.mp ht
  obtain ⟨⟨m₄, s⟩, hsweep, ht⟩ := bind_eq_ok.mp ht
  obtain ⟨rfl, rfl⟩ := Prod.mk.inj (pure_eq_ok.mp ht)
  have hexpired := Battle.tells_of_log_eq (Battle.log_changeAll hexpire)
  have hannounced : m₁.Tells r.pending m₂ := by
    apply faithful_forEach _ _ _ _ hannounce
    intro trigger _
    apply rules.emit_faithful
  have hkept := Battle.tells_of_log_eq (Battle.log_changeAll hkeep)
  have hswept := rules.sweep_faithful _ _ _ _ _ hsweep
  have htold := (hexpired.trans hannounced).trans (hkept.trans hswept)
  apply htold

end Ruleset

end CardBattle
