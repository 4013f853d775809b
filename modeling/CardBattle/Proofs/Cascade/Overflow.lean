import CardBattle.Proofs.BoardUnit.Overflow
import CardBattle.Proofs.Cascade.Depth

/-!
# Cascades fail only by overflow

Nothing stops a cascade in a coherent battle but a sum, a difference or a negation of
statistics that is no word.  Units that change their cells are put back into cells of the
board, and events are never nested deeper than can be counted, since there are at most twelve
units.
-/

namespace CardBattle

open Change

/-! ### Changes of many units -/

section

variable {S : Fault → Prop} {f : BoardUnit → Except Fault BoardUnit}

theorem changeUnits_failsOnly {cells : List (Option BoardUnit)}
    (hf : ∀ u ∈ cells.filterMap id, FailsOnly S (f u)) :
  FailsOnly S (changeUnits f cells)
  := by
  induction cells with
  | nil => apply failsOnly_ok
  | cons cell rest ih =>
    cases cell with
    | none =>
      apply (ih hf).bind
      intro changed _
      apply failsOnly_ok
    | some u =>
      apply (hf u List.mem_cons_self).bind
      intro v _
      apply (ih fun w hw => hf w (List.mem_cons_of_mem u hw)).bind
      intro changed _
      apply failsOnly_ok

theorem Board.changeAll_failsOnly {b : Board} (hf : ∀ u ∈ b.units, FailsOnly S (f u)) :
  FailsOnly S (b.changeAll f)
  := by
  rw [changeAll]
  split
  · apply failsOnly_ok
  · next fault h =>
    intro fault' hfault
    obtain rfl := Except.error.inj hfault
    apply changeUnits_failsOnly hf fault h

/-- Changing all units fails as `S` says when each of the changes does. -/
theorem Battle.changeAll_failsOnly {b : Battle} (hf : ∀ u ∈ b.units, FailsOnly S (f u)) :
  FailsOnly S (b.changeAll f)
  := by
  apply FailsOnly.bind
  · apply Board.changeAll_failsOnly
    intro u hu
    apply hf u (List.mem_append_left _ hu)
  · intro board0 _
    apply FailsOnly.bind
    · apply Board.changeAll_failsOnly
      intro u hu
      apply hf u (List.mem_append_right _ hu)
    · intro board1 _
      apply failsOnly_ok

end

namespace Battle

theorem changeEach_failsOnly {f : BoardUnit → Except Fault BoardUnit}
    (hf : ∀ u, FailsOnly Fault.IsOverflow (f u)) (uids : List Uid) (b : Battle) :
  FailsOnly Fault.IsOverflow (b.changeEach f uids)
  := by
  induction uids generalizing b with
  | nil => apply failsOnly_ok
  | cons uid rest ih =>
    rw [changeEach]
    split
    · apply (hf _).bind
      intro v _
      apply ih
    · apply ih

end Battle

section

variable {rules : Ruleset} {emit : Event → Change} {actor : BoardUnit} {event : Event}
  {b : Battle} {u : BoardUnit}

/-! ### Steps that fail only as units do -/

theorem onUnit_failsOnly {ref : UnitRef} {act : BoardUnit → Change}
    (hact : ∀ u, b.find? u.uid = some u → FailsOnly Fault.IsOverflow (act u b)) :
  FailsOnly Fault.IsOverflow (onUnit actor event ref act b)
  := by
  rw [onUnit]
  split
  · next u hu => apply hact u (find?_of_resolve? hu)
  · apply failsOnly_report

theorem Dealing.run_failsOnly (d : Dealing) :
  FailsOnly Fault.IsOverflow (d.run actor b)
  := by
  rw [run]
  split
  · apply failsOnly_report
  · apply failsOnly_report

theorem Tending.runEach_failsOnly (filter : UnitFilter) (t : Tending) (remark? : Option String) :
  FailsOnly Fault.IsOverflow (t.runEach rules actor filter remark? b)
  := by
  apply (b.changeEach_failsOnly (t.change_failsOnly b.turn) _).bind
  intro m _
  apply failsOnly_report

theorem stepPeekHand_failsOnly (count : UInt32) :
  FailsOnly Fault.IsOverflow (stepPeekHand rules actor count b)
  := by
  dsimp only [stepPeekHand]
  split
  · apply failsOnly_report
  · apply failsOnly_report

/-- Units that change their cells always find the cells of each other. -/
theorem stepSwap_failsOnly (hb : b.Coherent) (first second : UnitRef) :
  FailsOnly Fault.IsOverflow (stepSwap rules actor event first second b)
  := by
  obtain ⟨b', r, h, -⟩ := stepSwap_spec hb rules actor event first second
  rw [h]
  apply failsOnly_ok

/-! ### Sweeps -/

variable (hmoves : ∀ event b b', (emit event).Leads b b' → Moves b b')
  (hemit : ∀ event b, b.Shallow 12 event.depth → FailsOnly Fault.IsOverflow (emit event b))

include hmoves hemit

/-- Events of one depth after another fail only by overflow if the battle is shallow for
them. -/
theorem emits_failsOnly {α : Type} {events : α → Event} {l : List α} {depth : UInt32}
    (hdepth : ∀ a, (events a).depth = depth) (hb : b.Shallow 12 depth) :
  FailsOnly Fault.IsOverflow (forEach (fun a => emit (events a)) l b)
  := by
  refine failsOnly_forEach ?_ ?_ hb
  · intro a _ c hc
    apply hemit
    rw [hdepth a]
    apply hc
  · intro a _ c c' hc hleads
    apply hc.moves (hmoves _ _ _ hleads)

/-- A sweep fails only by overflow if, but for one unit, the battle is shallow for the events
that it causes. -/
theorem sweepUpTo_failsOnly {source : Option Uid} {depth : UInt32} {n : Nat} {b : Battle}
    (hb : b.Coherent) (hdepth : depth.toNat + b.units.length ≤ 13) :
  FailsOnly Fault.IsOverflow (sweepUpTo emit source depth n b)
  := by
  induction n generalizing b with
  | zero => apply failsOnly_ok
  | succ n ih =>
    unfold sweepUpTo
    split
    · apply failsOnly_ok
    · next owner gone m hremove =>
      have hm : m.Shallow 12 depth := hb.shallow_departs hdepth hremove
      apply failsOnly_andThen
      · apply emits_failsOnly hmoves hemit _ hm
        intro trigger
        rfl
      · intro c hc
        have hshallow := hm.moves (emits_moves hmoves hc)
        have hdeparted := hshallow.departed
        apply ih hshallow.coherent (by omega)

theorem sweepWith_failsOnly {source : Option Uid} {depth : UInt32} (hb : b.Coherent)
    (hdepth : depth.toNat + b.units.length ≤ 13) :
  FailsOnly Fault.IsOverflow (sweepWith emit source depth b)
  := sweepUpTo_failsOnly hmoves hemit hb hdepth

/-- The sweep after a step of a script on an event for which the battle is shallow. -/
theorem sweepAfter_failsOnly (hb : b.Shallow 12 event.depth) :
  FailsOnly Fault.IsOverflow (sweepAfter emit actor event b)
  := by
  obtain ⟨depth, hinner, hdepth⟩ := Event.innerDepth_of_shallow hb
  have hdeparted := hb.departed
  rw [sweepAfter]
  rw [hinner]
  apply sweepWith_failsOnly hmoves hemit hb.coherent (by omega)

/-! ### Scripts -/

theorem Treatment.close_failsOnly (t : Treatment) (hb : b.Shallow 12 event.depth) :
  FailsOnly Fault.IsOverflow (t.close emit actor event b)
  := by
  rw [close]
  split
  · apply failsOnly_andThen
    · apply failsOnly_report
    · intro m hm
      rw [leads_report.mp hm]
      apply sweepAfter_failsOnly hmoves hemit hb
  · apply failsOnly_report

/-- In a battle shallow for its event a step that does not branch fails only by overflow. -/
theorem Form.run_failsOnly (form : Form) (hb : b.Shallow 12 event.depth) :
  FailsOnly Fault.IsOverflow (form.run rules emit actor event b)
  := by
  cases form with
  | unit whom t =>
    apply onUnit_failsOnly
    intro u hu
    apply (t.treat_failsOnly b.turn u).bind
    intro o ho
    apply t.close_failsOnly hmoves hemit
    exact hb.moves (Treatment.apply_moves rules hu ho)
  | each filter t remark? => apply t.runEach_failsOnly
  | cards d => apply d.run_failsOnly
  | peek count => apply stepPeekHand_failsOnly
  | swap first second => apply stepSwap_failsOnly hb.coherent
  | wait choice hplayer => apply failsOnly_report
  | ignored => apply failsOnly_report

/-- In a battle shallow for its event a script fails only by overflow. -/
theorem runScript_failsOnly (script : List Step) (hb : b.Shallow 12 event.depth) :
  FailsOnly Fault.IsOverflow (runScript rules emit actor event script b)
  := by
  induction script using scriptInduction generalizing b with
  | nil =>
    rw [runScript]
    apply failsOnly_ok
  | form step form rest hform ih =>
    rw [runScript, runStep_form hform]
    apply failsOnly_andThen (form.run_failsOnly hmoves hemit hb)
    intro m hm
    rw [← runStep_form hform] at hm
    exact ih (hb.moves (runStep_moves hmoves hm))
  | branch test thenSteps elseSteps rest ihthen ihelse ih =>
    rw [runScript]
    apply failsOnly_andThen
    · rw [runStep_branch]
      apply failsOnly_andThen
      · apply failsOnly_report
      · intro m hm
        rw [leads_report.mp hm]
        split
        · exact ihthen hb
        · exact ihelse hb
    · intro m hm
      exact ih (hb.moves (runStep_moves hmoves hm))

/-! ### Broadcasts -/

theorem runBlock_failsOnly {uid : Uid} {departed : Option BoardUnit} {block : RuleBlock}
    (hb : b.Shallow 12 event.depth) :
  FailsOnly Fault.IsOverflow (runBlock rules emit event uid departed block b)
  := by
  rw [runBlock]
  split
  · apply failsOnly_ok
  · split
    · apply runScript_failsOnly hmoves hemit _ hb
    · apply failsOnly_ok

omit hemit in
/-- Every script keeps a battle shallow. -/
theorem runScript_shallow (block : RuleBlock) (actor : BoardUnit) (b b' : Battle)
    (hb : b.Shallow 12 event.depth)
    (h : (runScript rules emit actor event block.script).Leads b b') :
  b'.Shallow 12 event.depth
  := hb.moves (runScript_moves hmoves h)

theorem runBlocks_failsOnly {uid : Uid} {departed : Option BoardUnit} {blocks : List RuleBlock}
    (hb : b.Shallow 12 event.depth) :
  FailsOnly Fault.IsOverflow (forEach (runBlock rules emit event uid departed) blocks b)
  := by
  refine failsOnly_forEach ?_ ?_ hb
  · intro block _ c hc
    apply runBlock_failsOnly hmoves hemit hc
  · intro block _ c c' hc hblock
    apply runBlock_keeps (runScript_shallow hmoves block) hc hblock

theorem respond_failsOnly {uid : Uid} (hb : b.Shallow 12 event.depth) :
  FailsOnly Fault.IsOverflow (respond rules emit event uid b)
  := by
  rw [respond]
  split
  · split
    · apply runBlocks_failsOnly hmoves hemit hb
    · apply failsOnly_ok
  · split
    · apply runBlocks_failsOnly hmoves hemit hb
    · apply failsOnly_ok

theorem broadcast_failsOnly (hb : b.Shallow 12 event.depth) :
  FailsOnly Fault.IsOverflow (broadcast rules emit event b)
  := by
  refine failsOnly_forEach ?_ ?_ hb
  · intro uid _ c hc
    apply respond_failsOnly hmoves hemit hc
  · intro uid _ c c' hc hrespond
    apply respond_keeps (fun _ block _ => runScript_shallow hmoves block) hc hrespond

end

namespace Ruleset

variable {rules : Ruleset} {b : Battle}

theorem emitWithin_failsOnly {n : Nat} {event : Event} {b : Battle}
    (hb : b.Shallow 12 event.depth) :
  FailsOnly Fault.IsOverflow (rules.emitWithin n event b)
  := by
  induction n generalizing event b with
  | zero => apply failsOnly_ok
  | succ n ih =>
    apply broadcast_failsOnly _ _ hb
    · intro inner c c'
      apply emitWithin_moves
    · intro inner c hc
      apply ih hc

/-- In a battle shallow for it an event fails only by overflow. -/
theorem emit_failsOnly (event : Event) (b : Battle) (hb : b.Shallow 12 event.depth) :
  FailsOnly Fault.IsOverflow (rules.emit event b)
  := emitWithin_failsOnly hb

/-- A sweep of a coherent battle fails only by overflow. -/
theorem sweep_failsOnly (hb : b.Coherent) (source : Option Uid) :
  FailsOnly Fault.IsOverflow (rules.sweep source 1 b)
  := by
  apply sweepWith_failsOnly rules.emit_moves rules.emit_failsOnly hb
  have hlength := b.length_units_le
  rw [UInt32.toNat_one]
  omega

/-- An activation in a coherent battle fails only by overflow. -/
theorem runActivation_failsOnly {uid : Uid} {ability : Ability} {event : Event}
    (hb : b.Shallow 12 event.depth) :
  FailsOnly Fault.IsOverflow (rules.runActivation uid ability event b)
  := runBlocks_failsOnly rules.emit_moves rules.emit_failsOnly hb

theorem lacks_failsOnly (b : Battle) :
  FailsOnly Fault.IsOverflow b.lacks
  := by
  apply mapM_failsOnly
  intro u _
  apply (Word.exact_failsOnly _ _).bind
  intro lack _
  apply failsOnly_ok

/-- A refresh of a coherent battle fails only by overflow. -/
theorem refresh_failsOnly (hb : b.Coherent) (player : UInt8) (first second : Trigger) :
  FailsOnly Fault.IsOverflow (rules.refresh player first second b)
  := by
  apply (lacks_failsOnly b).bind
  intro lacks _
  apply (Battle.changeAll_failsOnly fun u _ => u.expireBuffs_failsOnly .aura).bind
  intro m₁ hexpire
  have hm₁ : m₁.Coherent := hb.changeAll (fun _ _ => BoardUnit.expireBuffs_endures) hexpire
  apply FailsOnly.bind
  · apply emits_failsOnly rules.emit_moves rules.emit_failsOnly _ hm₁.shallow
    intro trigger
    rfl
  · rintro ⟨m₂, r⟩ hm₂
    have hm₂ : m₂.Coherent := hm₁.moves (emits_moves rules.emit_moves ⟨r, hm₂⟩)
    apply FailsOnly.bind
    · apply Battle.changeAll_failsOnly
      intro u _
      apply failsOnly_ok
    · intro m₃ hkeep
      have hm₃ : m₃.Coherent := by
        apply hm₂.changeAll _ hkeep
        intro u v hv
        obtain rfl := Except.ok.inj hv
        apply BoardUnit.keepLack_endures
      apply (sweep_failsOnly hm₃ none).bind
      rintro ⟨m₄, s⟩ _
      apply failsOnly_ok

end Ruleset

end CardBattle
