import CardBattle.Judgement
import CardBattle.Proofs.Battle.InPlace

/-!
# Judging battles that are alike

Filters, references, tests and conditions look at the places and the marks of units, but not
at their statistics and buffs; only the condition that the target is slower looks at a
velocity.  In battles that are the same in place but for statistics and buffs, the same units
are admitted and named, and the same tests and conditions hold (`Condition.holds_inPlace`).
-/

namespace CardBattle

/-- The events are the same, but the units eliminated are only related. -/
structure Event.Related (R : BoardUnit → BoardUnit → Prop) (event event' : Event) : Prop where
  eq : event' = { event with eliminated := event'.eliminated }
  eliminated : Option.Rel R event.eliminated event'.eliminated

variable {R : BoardUnit → BoardUnit → Prop} {rules : Ruleset} {b b' : Battle}
  {actor actor' u v : BoardUnit} {event event' : Event}

/-- Units that differ only in statistics and buffs belong together and stand in one cell. -/
theorem BoardUnit.Restats.cell (h : u.Restats v) :
  v.cell = u.cell
  := by rw [h]

theorem BoardUnit.Restats.isAdjacentTo_eq {u' v' : BoardUnit} (h : u.Restats v)
    (h' : u'.Restats v') :
  v.isAdjacentTo v' = u.isAdjacentTo u'
  := by
  rw [BoardUnit.isAdjacentTo, BoardUnit.isAdjacentTo, h.persists.owner, h.persists.uid, h.cell,
    h'.persists.owner, h'.persists.uid, h'.cell]

theorem BoardUnit.Restats.cardPasses_eq (h : u.Restats v) (rules : Ruleset) (p : Card → Bool) :
  rules.cardPasses v p = rules.cardPasses u p
  := by
  rw [Ruleset.cardPasses, Ruleset.cardPasses, Ruleset.cardOf?, Ruleset.cardOf?, h.persists.cardId]

/-- An event in which no unit was eliminated is related to itself. -/
theorem Event.related_self (h : event.eliminated = none) :
  event.Related R event
  := ⟨rfl, by rw [h]; exact .none⟩

/-- A test that related units pass alike is passed by units of lists that are related alike. -/
theorem any_of_forall {α : Type} {R : α → α → Prop} {p p' : α → Bool} {l l' : List α}
    (h : List.Forall₂ R l l') (hp : ∀ a a', R a a' → p' a' = p a) :
  l'.any p' = l.any p
  := by
  induction h with
  | nil => rfl
  | cons ha _ ih => rw [List.any_cons, List.any_cons, hp _ _ ha, ih]

/-- A test that related values pass alike is passed by optional ones alike. -/
theorem any_of_rel {α : Type} {R : α → α → Prop} {p p' : α → Bool} {o o' : Option α}
    (h : Option.Rel R o o') (hp : ∀ a a', R a a' → p' a' = p a) :
  o'.any p' = o.any p
  := by
  cases h with
  | none => rfl
  | some ha => exact hp _ _ ha

/-- What is related is so too when both are sought in two places. -/
theorem rel_orElse {α : Type} {R : α → α → Prop} {o o' p p' : Option α}
    (ho : Option.Rel R o o') (hp : Option.Rel R p p') :
  Option.Rel R (o <|> p) (o' <|> p')
  := by
  cases ho with
  | none => simpa using hp
  | some ha => exact .some ha

/-- The units that take part in their own elimination are related. -/
theorem departed?_inPlace (hevent : event.Related R event') :
  Option.Rel R event.departed? event'.departed?
  := by
  have heliminated := hevent.eliminated
  have htrigger : event'.trigger = event.trigger := by rw [hevent.eq]
  rw [Event.departed?, Event.departed?, htrigger]
  split
  · exact heliminated
  · exact .none

section

variable (hR : ∀ u v, R u v → u.Restats v)

include hR

/-- Units that are related are both sought by a uid, or neither is. -/
theorem filter_uid_inPlace {o o' : Option BoardUnit} (h : Option.Rel R o o') (uid : Uid) :
  Option.Rel R (o.filter fun u => u.uid = uid) (o'.filter fun u => u.uid = uid)
  := by
  cases h with
  | none => exact .none
  | @some u v huv =>
    have huid := (hR u v huv).persists.uid
    by_cases hu : u.uid = uid
    · simpa [Option.filter, huid, hu] using Option.Rel.some huv
    · simp [Option.filter, huid, hu]

/-- The units that a uid names are related. -/
theorem find?_inPlace (hb : b.InPlace R b') (uid : Uid) :
  Option.Rel R (b.find? uid) (b'.find? uid)
  := hb.find? (fun u v huv => (hR u v huv).persists.uid) uid

/-- The units that a reference names are related. -/
theorem resolve?_inPlace (hb : b.InPlace R b') (hactor : R actor actor')
    (hevent : event.Related R event') (ref : UnitRef) :
  Option.Rel R (ref.resolve? b actor event) (ref.resolve? b' actor' event')
  := by
  have huid : ref.uid? actor' event' = ref.uid? actor event := by
    rw [hevent.eq]
    cases ref with
    | self => exact congrArg some (hR _ _ hactor).persists.uid
    | _ => rfl
  rw [UnitRef.resolve?, UnitRef.resolve?, huid]
  cases ref.uid? actor event with
  | none => exact .none
  | some uid => exact find?_inPlace hR hb uid

/-- The units that an event names are related, whether they are still on a board or not. -/
theorem unit?_inPlace (hb : b.InPlace R b') (hevent : event.Related R event') (uid : Uid) :
  Option.Rel R (event.unit? b uid) (event'.unit? b' uid)
  := rel_orElse (find?_inPlace hR hb uid) (filter_uid_inPlace hR hevent.eliminated uid)

theorem targetUnit?_inPlace (hb : b.InPlace R b') (hevent : event.Related R event') :
  Option.Rel R (event.targetUnit? b) (event'.targetUnit? b')
  := by
  have htarget : event'.target = event.target := by rw [hevent.eq]
  rw [Event.targetUnit?, Event.targetUnit?, htarget]
  cases event.target with
  | none => exact .none
  | some uid => exact unit?_inPlace hR hb hevent uid

/-- The event concerns a unit whatever its statistics and buffs are. -/
theorem concerns_inPlace (hevent : event.Related R event') (huv : u.Restats v) :
  event'.concerns v = event.concerns u
  := by
  have heliminated := hevent.eliminated
  rw [Event.concerns, Event.concerns, hevent.eq, huv.persists.owner]
  dsimp only
  generalize event.eliminated = gone at heliminated
  generalize event'.eliminated = gone' at heliminated
  cases heliminated with
  | none => rfl
  | some h => simp only [Option.any_some, (hR _ _ h).persists.owner]

/-- An event is broadcast to the same units in the same order. -/
theorem recipients_inPlace (hb : b.InPlace R b') (hevent : event.Related R event') :
  event'.recipients b' = event.recipients b
  := by
  have huids : b'.units.map BoardUnit.uid = b.units.map BoardUnit.uid :=
    Board.map_eq_of_forall (fun u v huv => (hR u v huv).persists.uid) hb.units
  have hinsert : ∀ {gone gone' : BoardUnit}, R gone gone' → ∀ uids : List Uid,
      insertUid b' gone' uids = insertUid b gone uids := by
    intro gone gone' hgone uids
    induction uids with
    | nil => rw [insertUid, insertUid, (hR _ _ hgone).persists.uid]
    | cons uid rest ih =>
      have hprecedes : (b'.find? uid).any gone'.precedes = (b.find? uid).any gone.precedes := by
        apply any_of_rel (find?_inPlace hR hb uid)
        intro u v huv
        rw [hR _ _ huv, hR _ _ hgone]
        rfl
      rw [insertUid, insertUid, hprecedes, ih, (hR _ _ hgone).persists.uid]
  have hdeparted := departed?_inPlace hevent
  rw [Event.recipients, Event.recipients, huids]
  generalize event.departed? = gone at hdeparted
  generalize event'.departed? = gone' at hdeparted
  cases hdeparted with
  | none => rfl
  | some hgone => apply hinsert hgone

/-- The units that a filter admits are related. -/
theorem select_inPlace (hb : b.InPlace R b') (hactor : R actor actor') (filter : UnitFilter) :
  List.Forall₂ R (filter.select rules b actor) (filter.select rules b' actor')
  := by
  apply List.rel_filter _ hb.units
  intro u v huv
  dsimp only
  rw [hR _ _ huv, hR _ _ hactor]
  exact Iff.rfl

theorem admitsAtLeast_inPlace (hb : b.InPlace R b') (hactor : R actor actor')
    (filter : UnitFilter) (minimum : UInt64) :
  filter.admitsAtLeast rules b' actor' minimum = filter.admitsAtLeast rules b actor minimum
  := by
  rw [UnitFilter.admitsAtLeast, UnitFilter.admitsAtLeast,
    (select_inPlace hR hb hactor filter).length_eq]

end

mutual

/-- A test holds in both of two battles that are alike, or in neither. -/
theorem BranchTest.holds_inPlace (hR : ∀ u v, R u v → u.Restats v) (hb : b.InPlace R b')
    (hactor : R actor actor') (hevent : event.Related R event') (test : BranchTest) :
  test.holds rules b' actor' event' = test.holds rules b actor event
  := by
  cases test with
  | adjacentToSelf ref =>
    rw [BranchTest.holds, BranchTest.holds]
    apply any_of_rel (resolve?_inPlace hR hb hactor hevent ref)
    intro u v huv
    have hself : R ((b.find? actor.uid).getD actor) ((b'.find? actor'.uid).getD actor') := by
      rw [(hR _ _ hactor).persists.uid]
      have hfound := find?_inPlace hR hb actor.uid
      revert hfound
      generalize b.find? actor.uid = found
      generalize b'.find? actor.uid = found'
      intro hfound
      cases hfound with
      | none => exact hactor
      | some h => exact h
    apply (hR _ _ hself).isAdjacentTo_eq (hR _ _ huv)
  | targetHasNegativeStatus =>
    rw [BranchTest.holds, BranchTest.holds]
    apply any_of_rel (targetUnit?_inPlace hR hb hevent)
    intro u v huv
    have hstatuses : v.statuses = u.statuses := by rw [hR _ _ huv]
    rw [BoardUnit.hasNegativeStatus, BoardUnit.hasNegativeStatus, hstatuses]
  | countAtLeast filter minimum =>
    rw [BranchTest.holds, BranchTest.holds]
    apply admitsAtLeast_inPlace hR hb hactor
  | all tests =>
    rw [BranchTest.holds, BranchTest.holds]
    apply testsHold_inPlace hR hb hactor hevent tests
  | unknown => rfl

/-- Tests hold in both of two battles that are alike, or in neither. -/
theorem testsHold_inPlace (hR : ∀ u v, R u v → u.Restats v) (hb : b.InPlace R b')
    (hactor : R actor actor') (hevent : event.Related R event') (tests : List BranchTest) :
  testsHold rules b' actor' event' tests = testsHold rules b actor event tests
  := by
  cases tests with
  | nil => rfl
  | cons test rest =>
    rw [testsHold, testsHold, BranchTest.holds_inPlace hR hb hactor hevent test,
      testsHold_inPlace hR hb hactor hevent rest]

end

mutual

/-- A condition holds in both of two battles that are alike, or in neither, if velocities are
alike too or the event has no target. -/
theorem Condition.holds_inPlace (hR : ∀ u v, R u v → u.Restats v)
    (hspeed : event.target = none ∨ ∀ u v, R u v → v.velocity = u.velocity)
    (hb : b.InPlace R b') (hactor : R actor actor') (hevent : event.Related R event')
    (condition : Condition) :
  condition.holds rules b' actor' event' = condition.holds rules b actor event
  := by
  have hself := hR _ _ hactor
  cases condition with
  | selfZone lane => rw [Condition.holds, Condition.holds, hself.cell]
  | allyNameInPlay beginning =>
    rw [Condition.holds, Condition.holds]
    apply any_of_forall hb.units
    intro u v huv
    have halike := hR _ _ huv
    rw [hself.persists.owner, hself.persists.uid, halike.persists.owner, halike.persists.uid,
      halike.cardPasses_eq]
  | adjacentAlly faction =>
    rw [Condition.holds, Condition.holds]
    apply any_of_forall hb.units
    intro u v huv
    have halike := hR _ _ huv
    simp only [hself.isAdjacentTo_eq halike, halike.cardPasses_eq]
  | moverIsEnemy =>
    have hmover : event'.mover = event.mover := by rw [hevent.eq]
    rw [Condition.holds, Condition.holds, hmover]
    cases event.mover with
    | none => rw [Option.bind_none, Option.bind_none, Option.any_none, Option.any_none]
    | some uid =>
      apply any_of_rel (unit?_inPlace hR hb hevent uid)
      intro u v huv
      rw [hself.persists.owner, (hR _ _ huv).persists.owner]
  | targetName beginning =>
    rw [Condition.holds, Condition.holds]
    apply any_of_rel (targetUnit?_inPlace hR hb hevent)
    intro u v huv
    apply (hR _ _ huv).cardPasses_eq
  | targetIsEnemy =>
    rw [Condition.holds, Condition.holds]
    apply any_of_rel (targetUnit?_inPlace hR hb hevent)
    intro u v huv
    rw [hself.persists.owner, (hR _ _ huv).persists.owner]
  | targetFaction name =>
    rw [Condition.holds, Condition.holds]
    apply any_of_rel (targetUnit?_inPlace hR hb hevent)
    intro u v huv
    apply (hR _ _ huv).cardPasses_eq
  | targetHasClass className =>
    rw [Condition.holds, Condition.holds]
    apply any_of_rel (targetUnit?_inPlace hR hb hevent)
    intro u v huv
    apply (hR _ _ huv).cardPasses_eq
  | targetSlowerThanSelf =>
    rw [Condition.holds, Condition.holds]
    rcases hspeed with hnone | hvelocity
    · have htarget : event'.target = none := by rw [hevent.eq, hnone]
      rw [Event.targetUnit?, Event.targetUnit?, hnone, htarget, Option.bind_none,
        Option.bind_none, Option.any_none, Option.any_none]
    · apply any_of_rel (targetUnit?_inPlace hR hb hevent)
      intro u v huv
      rw [hvelocity _ _ huv, hvelocity _ _ hactor]
  | selfFirstAttacker =>
    have hfirst : b'.firstAttacker = b.firstAttacker := by rw [hb.frame]
    rw [Condition.holds, Condition.holds, hfirst, hself.persists.uid]
  | selfIsSource =>
    have hsource : event'.source = event.source := by rw [hevent.eq]
    rw [Condition.holds, Condition.holds, hsource, hself.persists.uid]
  | selfFlag flag =>
    have hflags : actor'.flags = actor.flags := by rw [hself]
    rw [Condition.holds, Condition.holds, BoardUnit.flag, BoardUnit.flag, hflags]
  | countAtLeast filter minimum =>
    rw [Condition.holds, Condition.holds]
    apply admitsAtLeast_inPlace hR hb hactor
  | all conditions =>
    rw [Condition.holds, Condition.holds]
    apply conditionsHold_inPlace hR hspeed hb hactor hevent conditions
  | unknown => rfl

/-- Conditions hold in both of two battles that are alike, or in neither. -/
theorem conditionsHold_inPlace (hR : ∀ u v, R u v → u.Restats v)
    (hspeed : event.target = none ∨ ∀ u v, R u v → v.velocity = u.velocity)
    (hb : b.InPlace R b') (hactor : R actor actor') (hevent : event.Related R event')
    (conditions : List Condition) :
  conditionsHold rules b' actor' event' conditions = conditionsHold rules b actor event conditions
  := by
  cases conditions with
  | nil => rfl
  | cons condition rest =>
    rw [conditionsHold, conditionsHold,
      Condition.holds_inPlace hR hspeed hb hactor hevent condition,
      conditionsHold_inPlace hR hspeed hb hactor hevent rest]

end

/-- A rule block runs in both of two battles that are alike, or in neither. -/
theorem RuleBlock.applies_inPlace (hR : ∀ u v, R u v → u.Restats v)
    (hspeed : event.target = none ∨ ∀ u v, R u v → v.velocity = u.velocity)
    (hb : b.InPlace R b') (hactor : R actor actor') (hevent : event.Related R event')
    (block : RuleBlock) :
  block.applies rules b' actor' event' = block.applies rules b actor event
  := by
  rw [RuleBlock.applies, RuleBlock.applies]
  cases block.condition with
  | none => rfl
  | some condition => exact condition.holds_inPlace hR hspeed hb hactor hevent

end CardBattle
