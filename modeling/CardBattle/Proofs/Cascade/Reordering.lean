import CardBattle.Proofs.BoardUnit.Reordering
import CardBattle.Proofs.Cascade.Likeness
import CardBattle.Proofs.Cascade.Move

/-!
# Cascades with buffs in another order

Scripts, sweeps and broadcasts do the same in two battles that differ only in the order of the
buffs of their units: where they have a result in the one, they have a result in the other
that differs in this order only, and their reports are the same (`Mirrors`).  The proof goes
along the recursion of the cascade: every script is mirrored if the broadcasts within it are
(`runScript_mirrors`), so a broadcast is if the broadcasts nested in it are, and these are
nested less deep (`emit_mirrors`).
-/

namespace CardBattle

open Change

/-- Nothing differs but the order of the buffs of units. -/
abbrev Battle.Reorders : Battle → Battle → Prop :=
  Battle.InPlace BoardUnit.Reorders

/-- The events are the same but for the order of the buffs of the unit eliminated. -/
abbrev Event.Reorders : Event → Event → Prop :=
  Event.Related BoardUnit.Reorders

/-- Where the first change has a result, so has the second, with the same report, and the
battles differ in the order of buffs only. -/
abbrev Mirrors : Except Fault (Battle × Report) → Except Fault (Battle × Report) → Prop :=
  Matches fun x y => x.1.Reorders y.1 ∧ y.2 = x.2

variable {rules : Ruleset} {emit : Event → Change} {actor actor' u v : BoardUnit}
  {event event' : Event} {b b' : Battle}

/-- The same is dealt from sides of which only the boards differ. -/
theorem Side.InPlace.deal {R : BoardUnit → BoardUnit → Prop} {s t : Side} (h : s.InPlace R t)
    (d : Dealing) :
  (d.deal t).1 = (d.deal s).1 ∧ (d.deal s).2.InPlace R (d.deal t).2
  := by
  have hdeal := d.deal_board s t.board
  rw [← h.frame] at hdeal
  rw [hdeal]
  refine ⟨rfl, rfl, ?_⟩
  rw [(d.shifts s).board]
  exact h.board

/-- What is related stays so when related searches are made in it. -/
theorem rel_bind {α β γ δ : Type} {S : α → β → Prop} {T : γ → δ → Prop} {o : Option α}
    {o' : Option β} {f : α → Option γ} {f' : β → Option δ} (h : Option.Rel S o o')
    (hf : ∀ a b, S a b → Option.Rel T (f a) (f' b)) :
  Option.Rel T (o.bind f) (o'.bind f')
  := by
  cases h with
  | none => exact .none
  | some h => exact hf _ _ h

theorem BoardUnit.Reorders.uid (h : u.Reorders v) :
  v.uid = u.uid
  := h.restats.persists.uid

theorem BoardUnit.Reorders.moved (h : u.Reorders v) (cell : Cell) :
  { u with cell }.Reorders { v with cell }
  := by
  obtain ⟨buffs, hbuffs, rfl⟩ := h
  exact ⟨buffs, hbuffs, rfl⟩

/-! ### Changes in sequence -/

theorem mirrors_report (hb : b.Reorders b') (r : Report) :
  Mirrors (report r b) (report r b')
  := matches_ok ⟨hb, rfl⟩

theorem mirrors_done (hb : b.Reorders b') :
  Mirrors (done b) (done b')
  := matches_ok ⟨hb, rfl⟩

theorem mirrors_andThen {first first' second second' : Change}
    (hfirst : Mirrors (first b) (first' b'))
    (hsecond : ∀ m m', m.Reorders m' → Mirrors (second m) (second' m')) :
  Mirrors (first.andThen second b) (first'.andThen second' b')
  := by
  apply hfirst.bind
  rintro ⟨m, r⟩ ⟨m', r'⟩ ⟨hm, hr⟩
  apply (hsecond m m' hm).bind
  rintro ⟨n, s⟩ ⟨n', s'⟩ ⟨hn, hs⟩
  dsimp only at hr hs ⊢
  rw [hr, hs]
  exact matches_ok ⟨hn, rfl⟩

theorem mirrors_forEach {α : Type} {f f' : α → Change} {l : List α}
    (hf : ∀ a ∈ l, ∀ b b', b.Reorders b' → Mirrors (f a b) (f' a b')) :
  ∀ {b b' : Battle}, b.Reorders b' → Mirrors (forEach f l b) (forEach f' l b')
  := by
  induction l with
  | nil =>
    intro b b' hb
    apply mirrors_done hb
  | cons a rest ih =>
    intro b b' hb
    apply mirrors_andThen (hf a List.mem_cons_self b b' hb)
    intro m m' hm
    apply ih _ hm
    intro c hc
    apply hf c (List.mem_cons_of_mem a hc)

/-! ### Sweeps -/

/-- The same unit falls, and what is left differs in the order of buffs only. -/
theorem removeFallen?_reorders (hb : b.Reorders b') :
  Option.Rel (fun x y => y.1 = x.1 ∧ x.2.1.Reorders y.2.1 ∧ x.2.2.Reorders y.2.2)
    b.removeFallen? b'.removeFallen?
  := by
  rw [Battle.removeFallen?, Battle.removeFallen?]
  have huid : ∀ u v : BoardUnit, u.Reorders v → v.uid = u.uid := fun _ _ h => h.uid
  have hfallen : Option.Rel BoardUnit.Reorders (b.units.find? fun u => !u.isAlive)
      (b'.units.find? fun u => !u.isAlive) := by
    apply Battle.find?_of_forall hb.units
    intro u v huv
    rw [huv.isAlive]
  apply rel_bind hfallen
  intro u v huv
  rw [huv.restats.persists.owner]
  apply rel_bind (hb.side? u.owner)
  intro s t hst
  rw [huv.uid]
  apply rel_bind (hst.board.take? huid u.uid)
  rintro ⟨gone, board⟩ ⟨gone', board'⟩ ⟨hgone, hboard⟩
  apply Option.Rel.some
  refine ⟨rfl, hgone, ?_⟩
  apply Battle.InPlace.record
  apply hb.setSide
  refine ⟨?_, hboard⟩
  dsimp only
  rw [hst.frame, hgone.restats.persists.cardId]

section

variable (hemit : ∀ event event' b b', event.Reorders event' → b.Reorders b' →
  Mirrors (emit event b) (emit event' b'))

include hemit

theorem sweepUpTo_mirrors (source : Option Uid) (depth : UInt32) (n : Nat) {b b' : Battle}
    (hb : b.Reorders b') :
  Mirrors (sweepUpTo emit source depth n b) (sweepUpTo emit source depth n b')
  := by
  induction n generalizing b b' with
  | zero => apply mirrors_done hb
  | succ n ih =>
    have hremove := removeFallen?_reorders hb
    unfold sweepUpTo
    generalize b.removeFallen? = removed at hremove
    generalize b'.removeFallen? = removed' at hremove
    cases hremove with
    | none => apply mirrors_done hb
    | @some x y h =>
      obtain ⟨owner, gone, m⟩ := x
      obtain ⟨owner', gone', m'⟩ := y
      obtain ⟨rfl, hgone, hm⟩ := h
      apply mirrors_andThen
      · apply mirrors_forEach _ hm
        intro trigger _ c c' hc
        apply hemit _ _ _ _ _ hc
        refine ⟨?_, .some hgone⟩
        rw [Event.ofElimination, Event.ofElimination, hgone.uid]
      · intro c c' hc
        apply ih hc

theorem sweepWith_mirrors (source : Option Uid) (depth : UInt32) (hb : b.Reorders b') :
  Mirrors (sweepWith emit source depth b) (sweepWith emit source depth b')
  := by
  rw [sweepWith, sweepWith, hb.units.length_eq]
  apply sweepUpTo_mirrors hemit source depth _ hb

theorem sweepAfter_mirrors (hactor : actor.Reorders actor') (hevent : event.Reorders event')
    (hb : b.Reorders b') :
  Mirrors (sweepAfter emit actor event b) (sweepAfter emit actor' event' b')
  := by
  have hdepth : event'.innerDepth = event.innerDepth := by rw [hevent.eq]; rfl
  rw [sweepAfter, sweepAfter, hactor.uid, hdepth]
  apply matches_bind
  intro depth _
  apply sweepWith_mirrors hemit _ depth hb

end

/-! ### Steps -/

theorem onUnit_mirrors (hactor : actor.Reorders actor') (hevent : event.Reorders event')
    (hb : b.Reorders b') {ref : UnitRef} {act act' : BoardUnit → Change}
    (hact : ∀ u v, u.Reorders v → Mirrors (act u b) (act' v b')) :
  Mirrors (onUnit actor event ref act b) (onUnit actor' event' ref act' b')
  := by
  have hfound := resolve?_inPlace (fun _ _ h => h.restats) hb hactor hevent ref
  rw [onUnit, onUnit]
  generalize ref.resolve? b actor event = found at hfound
  generalize ref.resolve? b' actor' event' = found' at hfound
  cases hfound with
  | none => apply mirrors_report hb
  | some huv => apply hact _ _ huv

theorem replace_reorders (hb : b.Reorders b') (huv : u.Reorders v) :
  (b.replace u).Reorders (b'.replace v)
  := hb.replace (fun _ _ h => h.uid) huv

/-- A unit is treated in both battles. -/
theorem apply_reorders {o o' : Outcome} (hb : b.Reorders b') (huv : u.Reorders v)
    (ho : o.Reorders o') :
  (o.apply rules u b).Reorders (o'.apply rules v b')
  := by
  have hunit : (o.unit?.elim b b.replace).Reorders (o'.unit?.elim b' b'.replace) := by
    have hunits := ho.unit
    generalize o.unit? = w at hunits
    generalize o'.unit? = w' at hunits
    cases hunits with
    | none => exact hb
    | some hw => exact replace_reorders hb hw
  rw [Outcome.apply, Outcome.apply, ho.remark, huv.restats.persists.label]
  cases o.remark? with
  | none => exact hunit
  | some remark => exact hunit.record _

theorem changeEach_matches {f : BoardUnit → Except Fault BoardUnit}
    (hf : ∀ u v, u.Reorders v → Matches BoardUnit.Reorders (f u) (f v)) (uids : List Uid)
    {b b' : Battle} (hb : b.Reorders b') :
  Matches Battle.Reorders (b.changeEach f uids) (b'.changeEach f uids)
  := by
  induction uids generalizing b b' with
  | nil => exact matches_ok hb
  | cons uid rest ih =>
    have hfound := hb.find? (fun _ _ h => h.uid) uid
    rw [Battle.changeEach, Battle.changeEach]
    generalize b.find? uid = found at hfound
    generalize b'.find? uid = found' at hfound
    cases hfound with
    | none => apply ih hb
    | some huv =>
      apply (hf _ _ huv).bind
      intro w w' hw
      apply ih (replace_reorders hb hw)

theorem select_map_uid (hactor : actor.Reorders actor') (hb : b.Reorders b')
    (filter : UnitFilter) :
  (filter.select rules b' actor').map BoardUnit.uid
    = (filter.select rules b actor).map BoardUnit.uid
  := by
  apply Board.map_eq_of_forall (R := BoardUnit.Reorders) (fun _ _ huv => huv.uid)
  exact select_inPlace (fun _ _ h => h.restats) hb hactor filter

section

variable (hactor : actor.Reorders actor') (hb : b.Reorders b')

include hactor hb

theorem Tending.runEach_mirrors (filter : UnitFilter) (t : Tending) (remark? : Option String) :
  Mirrors (t.runEach rules actor filter remark? b) (t.runEach rules actor' filter remark? b')
  := by
  have hturn : b'.turn = b.turn := by rw [hb.frame]
  rw [runEach, runEach, select_map_uid hactor hb filter, hturn]
  apply (changeEach_matches (fun u v huv => huv.change t b.turn) _ hb).bind
  intro m m' hm
  apply mirrors_report
  exact apply_reorders hm hactor ⟨.none, rfl⟩

theorem Dealing.run_mirrors (d : Dealing) :
  Mirrors (d.run actor b) (d.run actor' b')
  := by
  have hside := hb.side? actor.owner
  rw [run, run, hactor.restats.persists.owner]
  generalize b.side? actor.owner = found at hside
  generalize b'.side? actor.owner = found' at hside
  cases hside with
  | none => apply mirrors_report hb
  | @some s t hst =>
    obtain ⟨hcards, hdealt⟩ := hst.deal d
    dsimp only
    rw [hcards]
    apply mirrors_report
    exact (hb.setSide _ hdealt).foldl_record _ _

theorem stepPeekHand_mirrors (count : UInt32) :
  Mirrors (stepPeekHand rules actor count b) (stepPeekHand rules actor' count b')
  := by
  have hside := hb.side? (opponentOf actor.owner)
  have hseed : b'.peekSeed = b.peekSeed := by rw [hb.frame]; rfl
  rw [stepPeekHand, stepPeekHand, hactor.restats.persists.owner]
  dsimp only
  generalize b.side? (opponentOf actor.owner) = found at hside
  generalize b'.side? (opponentOf actor.owner) = found' at hside
  cases hside with
  | none => apply mirrors_report hb
  | @some s t hst =>
    have hhand : t.hand = s.hand := by rw [hst.frame]
    dsimp only
    rw [hseed, hhand]
    apply mirrors_report (hb.record _)

end

theorem putBack_matches {board board' : Board} (hb : b.Reorders b')
    (hboard : board.InPlace BoardUnit.Reorders board') (huv : u.Reorders v) (player : UInt8) :
  Matches Battle.Reorders (b.putBack player board u) (b'.putBack player board' v)
  := by
  apply (hboard.put huv huv.restats.cell).bind
  intro after after' h
  exact matches_ok (hb.setBoard player h)

theorem stepWait_mirrors (hb : b.Reorders b') (hactor : actor.Reorders actor')
    (choice : PendingChoice) (line : String) :
  Mirrors (stepWait actor choice line b) (stepWait actor' choice line b')
  := by
  rw [stepWait, stepWait, hactor.restats.persists.owner]
  apply mirrors_report (hb.record _)

/-- Units exchange their cells on boards that differ in the order of buffs only. -/
theorem exchange_mirrors {a a' : BoardUnit} {board board' : Board} (ha : a.Reorders a')
    (hboard : board.InPlace BoardUnit.Reorders board') (hb : b.Reorders b') (player : UInt8)
    (other : Uid) :
  Mirrors (exchange rules player a other board b) (exchange rules player a' other board' b')
  := by
  have htaken := hboard.take? (fun _ _ h => h.uid) other
  rw [exchange, exchange]
  generalize board.take? other = taken at htaken
  generalize board'.take? other = taken' at htaken
  cases htaken with
  | none =>
    apply (putBack_matches hb hboard ha player).bind
    intro m m' hm
    apply mirrors_report hm
  | @some x y h =>
    obtain ⟨c, left⟩ := x
    obtain ⟨c', left'⟩ := y
    obtain ⟨hc, hleft⟩ := h
    dsimp only at hc hleft ⊢
    rw [ha.restats.persists.label, hc.restats.persists.label, ha.restats.cell, hc.restats.cell]
    apply (hleft.put (ha.moved c.cell) rfl).bind
    intro board₁ board₁' hboard₁
    apply (putBack_matches hb hboard₁ (hc.moved a.cell) player).bind
    intro m m' hm
    apply mirrors_report (hm.record _)

theorem stepSwap_mirrors (hactor : actor.Reorders actor') (hevent : event.Reorders event')
    (hb : b.Reorders b') (first second : UnitRef) :
  Mirrors (stepSwap rules actor event first second b)
    (stepSwap rules actor' event' first second b')
  := by
  have hfirst := resolve?_inPlace (fun _ _ h => h.restats) hb hactor hevent first
  have hsecond := resolve?_inPlace (fun _ _ h => h.restats) hb hactor hevent second
  rw [stepSwap, stepSwap]
  generalize first.resolve? b actor event = x at hfirst
  generalize first.resolve? b' actor' event' = x' at hfirst
  generalize second.resolve? b actor event = y at hsecond
  generalize second.resolve? b' actor' event' = y' at hsecond
  cases hfirst with
  | none => apply mirrors_report hb
  | @some a a' ha =>
    cases hsecond with
    | none => apply mirrors_report hb
    | @some c c' hc =>
      dsimp only
      rw [ha.uid, hc.uid, ha.restats.persists.owner, hc.restats.persists.owner]
      split
      · apply mirrors_report hb
      · have hside := hb.side? a.owner
        generalize b.side? a.owner = side at hside
        generalize b'.side? a.owner = side' at hside
        cases hside with
        | none => apply mirrors_report hb
        | @some s t hst =>
          have htaken := hst.board.take? (fun _ _ h => h.uid) a.uid
          dsimp only
          generalize s.board.take? a.uid = taken at htaken
          generalize t.board.take? a.uid = taken' at htaken
          cases htaken with
          | none => apply mirrors_report hb
          | some h => apply exchange_mirrors h.1 h.2 hb

section

variable (hemit : ∀ event event' b b', event.Reorders event' → b.Reorders b' →
    Mirrors (emit event b) (emit event' b'))
  (hactor : actor.Reorders actor') (hevent : event.Reorders event')

include hemit hactor hevent

theorem Treatment.close_mirrors (t : Treatment) (hb : b.Reorders b') :
  Mirrors (t.close emit actor event b) (t.close emit actor' event' b')
  := by
  rw [close, close]
  split
  · apply mirrors_andThen (mirrors_report hb _)
    intro m m' hm
    exact sweepAfter_mirrors hemit hactor hevent hm
  · exact mirrors_report hb _

/-- A step that does not branch does the same whatever the order of buffs is. -/
theorem Form.run_mirrors (form : Form) (hb : b.Reorders b') :
  Mirrors (form.run rules emit actor event b) (form.run rules emit actor' event' b')
  := by
  cases form with
  | unit whom t =>
    have hturn : b'.turn = b.turn := by rw [hb.frame]
    apply onUnit_mirrors hactor hevent hb
    intro u v huv
    rw [Treatment.run, Treatment.run, hturn]
    apply (huv.treat t b.turn).bind
    intro o o' ho
    exact t.close_mirrors hemit hactor hevent (apply_reorders hb huv ho)
  | each filter t remark? => exact t.runEach_mirrors hactor hb filter remark?
  | cards d => exact d.run_mirrors hactor hb
  | peek count => exact stepPeekHand_mirrors hactor hb count
  | swap first second => exact stepSwap_mirrors hactor hevent hb first second
  | wait choice hplayer =>
    rw [run, run, hactor.restats.persists.owner]
    exact stepWait_mirrors hb hactor _ _
  | ignored => exact mirrors_report hb _

/-- A script does the same whatever the order of buffs is. -/
theorem runScript_mirrors (hb : b.Reorders b') (script : List Step) :
  Mirrors (runScript rules emit actor event script b)
    (runScript rules emit actor' event' script b')
  := by
  induction script using scriptInduction generalizing b b' with
  | nil =>
    rw [runScript, runScript]
    exact mirrors_done hb
  | form step form rest hform ih =>
    rw [runScript, runScript, runStep_form hform, runStep_form hform]
    apply mirrors_andThen (form.run_mirrors hemit hactor hevent hb)
    intro m m' hm
    exact ih hm
  | branch test thenSteps elseSteps rest ihthen ihelse ih =>
    rw [runScript, runScript]
    apply mirrors_andThen
    · rw [runStep_branch, runStep_branch,
        test.holds_inPlace (fun _ _ h => h.restats) hb hactor hevent]
      apply mirrors_andThen (mirrors_report hb _)
      intro m m' hm
      split
      · exact ihthen hm
      · exact ihelse hm
    · intro m m' hm
      exact ih hm

end

/-! ### Broadcasts -/

section

variable (hemit : ∀ event event' b b', event.Reorders event' → b.Reorders b' →
  Mirrors (emit event b) (emit event' b')) (hevent : event.Reorders event')

include hemit hevent

theorem runBlock_mirrors (hb : b.Reorders b') (uid : Uid) {departed departed' : Option BoardUnit}
    (hdeparted : Option.Rel BoardUnit.Reorders departed departed') (block : RuleBlock) :
  Mirrors (runBlock rules emit event uid departed block b)
    (runBlock rules emit event' uid departed' block b')
  := by
  have hfound := rel_orElse (hb.find? (fun _ _ h => h.uid) uid) hdeparted
  rw [runBlock, runBlock]
  generalize (b.find? uid <|> departed) = found at hfound
  generalize (b'.find? uid <|> departed') = found' at hfound
  cases hfound with
  | none => apply mirrors_done hb
  | @some actor actor' hactor =>
    dsimp only
    rw [block.applies_inPlace (fun _ _ h => h.restats) (.inr fun _ _ h => h.velocity) hb hactor
      hevent]
    split
    · apply runScript_mirrors hemit hactor hevent hb
    · apply mirrors_done hb

theorem respond_mirrors (hb : b.Reorders b') (uid : Uid) :
  Mirrors (respond rules emit event uid b) (respond rules emit event' uid b')
  := by
  have htrigger : event'.trigger = event.trigger := by rw [hevent.eq]
  have hfound := hb.find? (fun _ _ h => h.uid) uid
  rw [respond, respond, htrigger]
  generalize b.find? uid = found at hfound
  generalize b'.find? uid = found' at hfound
  cases hfound with
  | @some u v huv =>
    dsimp only
    rw [concerns_inPlace (fun _ _ h => h.restats) hevent huv.restats, huv.restats.persists.cardId]
    split
    · apply mirrors_forEach _ hb
      intro block _ c c' hc
      apply runBlock_mirrors hemit hevent hc uid .none
    · apply mirrors_done hb
  | none =>
    have hrestats : ∀ u v : BoardUnit, u.Reorders v → u.Restats v := fun _ _ h => h.restats
    have hdeparted := filter_uid_inPlace hrestats (departed?_inPlace hevent) uid
    dsimp only
    generalize event.departed?.filter (fun gone => gone.uid = uid) = gone at hdeparted
    generalize event'.departed?.filter (fun gone => gone.uid = uid) = gone' at hdeparted
    cases hdeparted with
    | none => apply mirrors_done hb
    | @some gone gone' hgone =>
      dsimp only
      rw [hgone.restats.persists.cardId]
      apply mirrors_forEach _ hb
      intro block _ c c' hc
      apply runBlock_mirrors hemit hevent hc uid (.some hgone)

theorem broadcast_mirrors (hb : b.Reorders b') :
  Mirrors (broadcast rules emit event b) (broadcast rules emit event' b')
  := by
  rw [broadcast, broadcast, recipients_inPlace (fun _ _ h => h.restats) hb hevent]
  apply mirrors_forEach _ hb
  intro uid _ c c' hc
  apply respond_mirrors hemit hevent hc

end

namespace Ruleset

/-- A broadcast does the same whatever the order of buffs is. -/
theorem emitWithin_mirrors (n : Nat) (event event' : Event) (b b' : Battle)
    (hevent : event.Reorders event') (hb : b.Reorders b') :
  Mirrors (rules.emitWithin n event b) (rules.emitWithin n event' b')
  := by
  induction n generalizing event event' b b' with
  | zero => apply mirrors_done hb
  | succ n ih => apply broadcast_mirrors ih hevent hb

theorem emit_mirrors (event event' : Event) (b b' : Battle) (hevent : event.Reorders event')
    (hb : b.Reorders b') :
  Mirrors (rules.emit event b) (rules.emit event' b')
  := by
  have hdepth : event'.depth = event.depth := by rw [hevent.eq]
  rw [emit, emit, hdepth]
  apply emitWithin_mirrors _ _ _ _ _ hevent hb

end Ruleset

end CardBattle
