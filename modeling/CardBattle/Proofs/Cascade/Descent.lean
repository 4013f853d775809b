import CardBattle.Proofs.Cascade.Frame

/-!
# Where units come from

No unit comes to the boards in the course of a cascade: every unit descends from one that was
there before.  What can be said of it and its ancestor is a relation that whatever the steps
of scripts do to a unit respects (`BoardUnit.IsTie`), or at least what those steps do that
there are in the rule blocks (`Ruleset.AnswersWith`).  Then the whole cascade respects it
(`emit_descends`).  A relation that only some changes of statistics break is a bond
(`BoardUnit.IsBond`); there it is enough to look at those (`scriptChangesOnly`).
-/

namespace CardBattle

open Relation (ReflTransGen)
open Change

mutual

/-- Every change of a statistic that a step makes, or a step of its branches, is allowed for
that statistic and that duration. -/
def Step.ChangesOnly (allowed : Stat → Duration → Prop) : Step → Prop
  | .modifyStat _ stat _ duration => allowed stat duration
  | .branch _ thenSteps elseSteps =>
      scriptChangesOnly allowed thenSteps ∧ scriptChangesOnly allowed elseSteps
  | _ => True

/-- Every change of a statistic that a script makes, at any nesting, is allowed. -/
def scriptChangesOnly (allowed : Stat → Duration → Prop) : List Step → Prop
  | [] => True
  | step :: rest => step.ChangesOnly allowed ∧ scriptChangesOnly allowed rest

end

/-- A relation between a unit and what becomes of it, which holds however the unit is moved or
altered, if its statistics are changed only as is allowed. -/
structure BoardUnit.IsBond (allowed : Stat → Duration → Prop)
    (R : BoardUnit → BoardUnit → Prop) : Prop where
  refl : ∀ u, R u u
  trans : ∀ u v w, R u v → R v w → R u w
  elsewhere : ∀ (u : BoardUnit) (cell : Cell), R u { u with cell }
  alters : ∀ u v : BoardUnit, u.Alters (fun _ => False) v → R u v
  buff : ∀ (u v : BoardUnit) (stat : Stat) (delta : Int32) (duration : Duration),
    allowed stat duration → u.addBuff stat delta duration = .ok v → R u v

/-- A relation between a unit and what becomes of it, which holds wherever the unit is moved
and whatever is done to it by steps that pass a test. -/
structure BoardUnit.IsTie (p : Step → Prop) (R : BoardUnit → BoardUnit → Prop) : Prop where
  refl : ∀ u, R u u
  trans : ∀ u v w, R u v → R v w → R u w
  elsewhere : ∀ (u : BoardUnit) (cell : Cell), R u { u with cell }
  does : ∀ (step : Step) (u v : BoardUnit), p step → step.Does u v → R u v

/-- All steps of the rule blocks for a trigger pass a test. -/
def Ruleset.AnswersWith (rules : Ruleset) (p : Step → Prop) (trigger : Trigger) : Prop :=
  ∀ cardId, ∀ block ∈ rules.blocksOf cardId trigger, scriptAll p block.script

/-- Every unit was there before, and is in a relation to what it was. -/
def Battle.Descends (R : BoardUnit → BoardUnit → Prop) (b b' : Battle) : Prop :=
  ∀ v ∈ b'.units, ∃ u ∈ b.units, R u v

variable {rules : Ruleset} {emit : Event → Change} {actor : BoardUnit} {event : Event}
  {R : BoardUnit → BoardUnit → Prop} {allowed : Stat → Duration → Prop} {p : Step → Prop}
  {b m b' : Battle}

mutual

theorem Step.ChangesOnly.all {step : Step} (h : step.ChangesOnly allowed) :
  step.All (Step.ChangesOnly allowed)
  := by
  cases step with
  | branch test thenSteps elseSteps =>
    exact ⟨scriptChangesOnly_all thenSteps h.1, scriptChangesOnly_all elseSteps h.2⟩
  | _ => exact h

theorem scriptChangesOnly_all (script : List Step) (h : scriptChangesOnly allowed script) :
  scriptAll (Step.ChangesOnly allowed) script
  := by
  cases script with
  | nil => trivial
  | cons step rest => exact ⟨h.1.all, scriptChangesOnly_all rest h.2⟩

end

/-- All steps pass the test that every step passes. -/
theorem Ruleset.answersWith_any (rules : Ruleset) (trigger : Trigger) :
  rules.AnswersWith (fun _ => True) trigger
  := fun _ _ _ => scriptAll_any _

/-- It is enough to look at the rule blocks of the cards in the catalog. -/
theorem Ruleset.answersWith_of_cards {trigger : Trigger}
    (h : ∀ card ∈ rules.catalog.cards, ∀ ability ∈ card.abilities, ∀ block ∈ ability.rules,
      block.trigger = trigger → scriptAll p block.script) :
  rules.AnswersWith p trigger
  := by
  intro cardId block hblock
  obtain ⟨card, hfound, ability, hability, hmem, htrigger⟩ := mem_blocksOf hblock
  apply h card (List.mem_of_find?_eq_some hfound) ability hability block hmem htrigger

/-- Steps that make only such changes of statistics as are allowed respect a bond. -/
theorem BoardUnit.IsBond.isTie (hR : BoardUnit.IsBond allowed R) :
  BoardUnit.IsTie (Step.ChangesOnly allowed) R
  := by
  constructor
  case refl => exact hR.refl
  case trans => exact hR.trans
  case elsewhere => exact hR.elsewhere
  case does =>
    rintro step u v hstep ⟨-, h⟩
    cases step with
    | damage => exact hR.alters _ _ (.damage h)
    | heal | healAllies =>
      obtain ⟨gain, hheal⟩ := h
      exact hR.alters _ _ (.heal hheal)
    | modifyStat => exact hR.buff _ _ _ _ _ hstep h
    | preventActive => exact hR.alters _ _ (.mark h)
    | _ => exact hR.alters _ _ (.mark h.1)

namespace Battle

theorem Descends.refl (hR : ∀ u, R u u) (b : Battle) :
  b.Descends R b
  := fun u hu => ⟨u, hu, hR u⟩

theorem Descends.trans (hR : ∀ u v w, R u v → R v w → R u w) (h : b.Descends R m)
    (h' : m.Descends R b') :
  b.Descends R b'
  := by
  intro w hw
  obtain ⟨v, hv, hvw⟩ := h' w hw
  obtain ⟨u, hu, huv⟩ := h v hv
  exact ⟨u, hu, hR _ _ _ huv hvw⟩

/-- A unit that is found by its uid comes from the one that was found by it before. -/
theorem Descends.find? (hb : b.Coherent) (hR : ∀ u v, R u v → v.uid = u.uid)
    (h : b.Descends R b') {uid : Uid} {v : BoardUnit} (hv : b'.find? uid = some v) :
  ∃ u, b.find? uid = some u ∧ R u v
  := by
  obtain ⟨u, hu, huv⟩ := h v (mem_of_find? hv)
  refine ⟨u, ?_, huv⟩
  rw [← find?_uid hv, hR u v huv]
  apply find?_of_mem hb.distinct hu

theorem descends_of_units (hR : ∀ u, R u u) (h : b'.units = b.units) :
  b.Descends R b'
  := by
  intro u hu
  rw [h] at hu
  exact ⟨u, hu, hR u⟩

theorem Coherent.replace_descends (hb : b.Coherent) (hR : ∀ u, R u u) {u v : BoardUnit}
    (hu : b.find? u.uid = some u) (huid : v.uid = u.uid) (h : R u v) :
  b.Descends R (b.replace v)
  := by
  intro w hw
  rcases hb.mem_replace hu huid hw with rfl | ⟨hmem, -⟩
  · exact ⟨u, mem_of_find? hu, h⟩
  · exact ⟨w, hmem, hR w⟩

theorem Departs.descends (hR : ∀ u, R u u) {gone : BoardUnit} (h : Departs gone b b') :
  b.Descends R b'
  := by
  intro v hv
  exact ⟨v, h.subset_units hv, hR v⟩

theorem Rearranges.descends (hR : ∀ (u : BoardUnit) (cell : Cell), R u { u with cell })
    (h : b.Rearranges b') :
  b.Descends R b'
  := by
  intro v hv
  obtain ⟨u, hu, hsame⟩ := h.exists_unit hv
  refine ⟨u, hu, ?_⟩
  rw [hsame]
  apply hR

theorem descends_changeAll {f : BoardUnit → Except Fault BoardUnit}
    (hf : ∀ u v, f u = .ok v → R u v) (h : b.changeAll f = .ok b') :
  b.Descends R b'
  := by
  intro v hv
  obtain ⟨i, hi⟩ := List.mem_iff_getElem?.mp hv
  obtain ⟨u, hu, huv⟩ := Board.getElem?_of_forall (changeAll_units h) hi
  exact ⟨u, List.mem_of_getElem? hu, hf u v huv⟩

/-- A touch respects a tie when the alterations of units do. -/
theorem Coherent.touch_descends (hR : BoardUnit.IsTie p R)
    {A : BoardUnit → BoardUnit → Prop} (hendures : ∀ u v, A u v → u.Endures v)
    (hA : ∀ u v, A u v → R u v) (hb : b.Coherent) (h : Touch A b b') :
  b.Descends R b'
  := by
  cases h with
  | note h => apply descends_of_units hR.refl h.units_eq
  | alter hu h => apply hb.replace_descends hR.refl hu (hendures _ _ h).uid (hA _ _ h)
  | shift hs h => apply descends_of_units hR.refl (units_shift hs h.board)
  | swap h =>
    obtain rfl | ⟨m, hm, -, hlogs⟩ := stepSwap_leads hb h
    · apply Descends.refl hR.refl
    · apply (hm.descends hR.elsewhere).trans hR.trans
      apply descends_of_units hR.refl hlogs.units_eq

/-- Touches one after another respect a tie when the alterations of units do. -/
theorem Coherent.touches_descends (hR : BoardUnit.IsTie p R)
    {A : BoardUnit → BoardUnit → Prop} (hb : b.Coherent)
    (hendures : ∀ u v, A u v → u.Endures v) (hA : ∀ u v, A u v → R u v) (h : Touches A b b') :
  b.Descends R b'
  := by
  induction h with
  | refl => apply Descends.refl hR.refl
  | tail htouches htouch ih =>
    apply ih.trans hR.trans
    apply (hb.touches hendures htouches).touch_descends hR hendures hA htouch

/-- Moves respect a tie that all alterations of units respect. -/
theorem Coherent.moves_descend (hR : BoardUnit.IsTie p R)
    (halters : ∀ u v : BoardUnit, u.Alters (fun _ => True) v → R u v) (hb : b.Coherent)
    (h : Moves b b') :
  b.Descends R b'
  := by
  induction h with
  | refl => apply Descends.refl hR.refl
  | tail hmoves hmove ih =>
    apply ih.trans hR.trans
    have hm := hb.moves hmoves
    cases hmove with
    | touch htouch =>
      apply hm.touch_descends hR (fun _ _ => BoardUnit.Alters.endures) halters htouch
    | depart hdepart => apply (hm.departs hdepart).2.descends hR.refl

end Battle

/-! ### Sweeps and scripts -/

section

variable (hR : BoardUnit.IsTie p R)
  (hmoves : ∀ event b b', (emit event).Leads b b' → Moves b b')
  (hemit : ∀ event b b', event.trigger ∈ Trigger.eliminations → b.Coherent →
    (emit event).Leads b b' → b.Descends R b')

include hR hmoves hemit

theorem sweepUpTo_descends {source : Option Uid} {depth : UInt32} {n : Nat} {b b' : Battle}
    (hb : b.Coherent) (h : (sweepUpTo emit source depth n).Leads b b') :
  b.Descends R b'
  := by
  induction n generalizing b with
  | zero =>
    rw [leads_done.mp h]
    apply Battle.Descends.refl hR.refl
  | succ n ih =>
    obtain ⟨-, rfl⟩ | ⟨owner, gone, m, m', hremove, hannounce, hrest⟩ := sweepUpTo_leads h
    · apply Battle.Descends.refl hR.refl
    · have hdeparts := (hb.departs hremove).2
      have hm := hdeparts.coherent hb
      have hannounced : m'.Coherent ∧ b.Descends R m' := by
        apply forEach_keeps (P := fun c => c.Coherent ∧ b.Descends R c) _
          ⟨hm, hdeparts.descends hR.refl⟩ hannounce
        rintro trigger htrigger c c' ⟨hc, hdescends⟩ hleads
        use hc.moves (hmoves _ _ _ hleads)
        apply hdescends.trans hR.trans
        apply hemit _ _ _ htrigger hc hleads
      apply hannounced.2.trans hR.trans (ih hannounced.1 hrest)

theorem sweepAfter_descends (hb : b.Coherent) (h : (sweepAfter emit actor event).Leads b b') :
  b.Descends R b'
  := by
  obtain ⟨r, h⟩ := h
  obtain ⟨depth, -, h⟩ := bind_eq_ok.mp h
  apply sweepUpTo_descends hR hmoves hemit hb ⟨r, h⟩

/-- A stroke of a script respects every tie that its step respects. -/
theorem Stroke.descends (hb : b.Coherent) (h : Stroke rules emit p actor event b b') :
  b.Descends R b'
  := by
  cases h with
  | @touch step _ _ hp _ h =>
    apply hb.touch_descends hR _ _ h
    · intro u v hdoes
      apply hdoes.1.alters.endures
    · intro u v hdoes
      apply hR.does step u v hp hdoes
  | @wound step _ m _ u v hp _ hu hdoes hlogs hsweep =>
    have hendures := hdoes.1.alters.endures
    have hm := (hb.replace hu hendures).logs hlogs
    apply (hb.replace_descends hR.refl hu hendures.uid (hR.does step u v hp hdoes)).trans hR.trans
    apply (Battle.descends_of_units hR.refl hlogs.units_eq).trans hR.trans
    apply sweepAfter_descends hR hmoves hemit hm hsweep

/-- A script respects a tie if all its steps do. -/
theorem runScript_descends (hb : b.Coherent) (script : List Step) (hscript : scriptAll p script)
    (h : (runScript rules emit actor event script).Leads b b') :
  b.Descends R b'
  := by
  have hstrokes := runScript_strokes script hscript h
  clear h
  have hkept : b'.Coherent ∧ b.Descends R b' := by
    induction hstrokes with
    | refl => exact ⟨hb, .refl hR.refl b⟩
    | tail _ hstroke ih =>
      use ih.1.moves (hstroke.moves hmoves)
      apply ih.2.trans hR.trans (hstroke.descends hR hmoves hemit ih.1)
  exact hkept.2

/-- The answers of some units to an event respect a tie if the steps of the rule blocks for it
do. -/
theorem responds_descend (hrules : rules.AnswersWith p event.trigger) (hb : b.Coherent)
    {uids : List Uid} (h : (forEach (respond rules emit event) uids).Leads b b') :
  b'.Coherent ∧ b.Descends R b'
  := by
  apply forEach_keeps (P := fun c => c.Coherent ∧ b.Descends R c) _ ⟨hb, .refl hR.refl b⟩ h
  intro uid _ c c' hc hrespond
  apply respond_keeps (P := fun c => c.Coherent ∧ b.Descends R c) _ hc hrespond
  rintro cardId block hblock actor d d' ⟨hd, hdescends⟩ hrun
  use hd.moves (runScript_moves hmoves hrun)
  apply hdescends.trans hR.trans
  apply runScript_descends hR hmoves hemit hd _ (hrules cardId block hblock) hrun

end

/-! ### Events -/

namespace Ruleset

section

variable (hR : BoardUnit.IsTie p R) {q : Trigger → Prop}
  (heliminations : ∀ trigger ∈ Trigger.eliminations, q trigger)
  (hrules : ∀ trigger, q trigger → rules.AnswersWith p trigger)

include hR heliminations hrules

theorem emitWithin_descends (n : Nat) (event : Event) (b b' : Battle) (hevent : q event.trigger)
    (hb : b.Coherent) (h : (rules.emitWithin n event).Leads b b') :
  b.Descends R b'
  := by
  induction n generalizing event b b' with
  | zero =>
    rw [leads_done.mp h]
    apply Battle.Descends.refl hR.refl
  | succ n ih =>
    have h : (forEach (respond rules (rules.emitWithin n) event) (event.recipients b)).Leads b b' :=
      h
    have hanswers := responds_descend hR (fun _ _ _ => emitWithin_moves)
      (fun event b b' helimination => ih event b b' (heliminations _ helimination))
      (hrules _ hevent) hb h
    exact hanswers.2

/-- What comes of an event respects a tie if the steps of the rule blocks for it do, and those
of the rule blocks for the eliminations that it entails. -/
theorem emit_descends (event : Event) (b b' : Battle) (hevent : q event.trigger)
    (hb : b.Coherent) (h : (rules.emit event).Leads b b') :
  b.Descends R b'
  := emitWithin_descends hR heliminations hrules _ event b b' hevent hb h

theorem sweep_descends {source : Option Uid} {depth : UInt32} (hb : b.Coherent)
    (h : (rules.sweep source depth).Leads b b') :
  b.Descends R b'
  := by
  obtain ⟨r, h⟩ := h
  apply sweepUpTo_descends hR rules.emit_moves _ hb ⟨r, h⟩
  intro event c c' helimination
  apply emit_descends hR heliminations hrules event c c' (heliminations _ helimination)

/-- A refresh respects a tie if the steps of the rule blocks for its triggers do, and what it
does to all units at once. -/
theorem refresh_descends (hexpire : ∀ u v : BoardUnit, u.expireBuffs .aura = .ok v → R u v)
    (hkeep : ∀ (lacks : Lacks) (u : BoardUnit), R u (u.keepLack lacks)) (hb : b.Coherent)
    {player : UInt8} {first second : Trigger} (hfirst : q first) (hsecond : q second)
    (h : (rules.refresh player first second).Leads b b') :
  b.Descends R b'
  := by
  obtain ⟨lacks, m₁, m₂, m₃, ⟨hexpired, hm₁⟩, ⟨hannounce, -, -⟩, ⟨hkept, hm₃⟩, hsweep⟩ :=
    refresh_coherent hb h
  have hannounced : m₂.Coherent ∧ m₁.Descends R m₂ := by
    apply forEach_keeps (P := fun c => c.Coherent ∧ m₁.Descends R c) _ ⟨hm₁, .refl hR.refl m₁⟩
      hannounce
    rintro trigger htrigger c c' ⟨hc, hdescends⟩ hleads
    have hq : q trigger := by
      rcases List.mem_pair.mp htrigger with rfl | rfl
      · exact hfirst
      · exact hsecond
    use hc.moves (rules.emit_moves _ _ _ hleads)
    apply hdescends.trans hR.trans (emit_descends hR heliminations hrules _ _ _ hq hc hleads)
  have hlowered : m₂.Descends R m₃ := by
    apply Battle.descends_changeAll _ hkept
    intro u v hv
    obtain rfl := Except.ok.inj hv
    apply hkeep
  apply (Battle.descends_changeAll hexpire hexpired).trans hR.trans
  apply hannounced.2.trans hR.trans
  apply hlowered.trans hR.trans
  apply sweep_descends hR heliminations hrules hm₃ hsweep

end

end Ruleset

end CardBattle
