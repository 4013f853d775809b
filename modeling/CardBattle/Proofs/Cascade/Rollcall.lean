import CardBattle.Proofs.Battle.InPlace
import CardBattle.Proofs.Cascade.Overflow

/-!
# Broadcasts that are counted

Where all rule blocks for a trigger do nothing but raise the impact of their own unit by one
(`Ruleset.Rouses`), the three loops of a broadcast, over the units, their abilities and the rule
blocks of these, come down to one loop that rouses one unit after another, and this to a change
of all units at once (`forEach_rouse`).  So it can be counted that the broadcast calls on every
unit, in scan order, as often as its card says, and on no other (`broadcast_counted`).
-/

namespace CardBattle

open Change

/-! ### Units that are raised -/

namespace BoardUnit

/-- The unit with its impact raised by a number. -/
def raise (n : Nat) (u : BoardUnit) : Except Fault BoardUnit := do
  return { u with impact := ← Word.exact .add (u.impact.toInt + n) }

variable {u v w : BoardUnit} {m n : Nat}

theorem raise_eq_ok :
  u.raise n = .ok v ↔ v = { u with impact := v.impact } ∧ v.impact.toInt = u.impact.toInt + n
  := by
  simp only [raise, bind_eq_ok, pure_eq_ok, Word.exact_eq_ok_iff]
  constructor
  · rintro ⟨impact, himpact, rfl⟩
    exact ⟨rfl, himpact⟩
  · rintro ⟨hsame, himpact⟩
    exact ⟨v.impact, himpact, hsame.symm⟩

/-- A unit can be raised if its impact has room for it. -/
theorem exists_raise (h : u.impact.toInt + n < 0x80000000) :
  ∃ v, u.raise n = .ok v
  := by
  have hlow := u.impact.le_toInt
  have hword : (Int32.ofInt (u.impact.toInt + n)).toInt = u.impact.toInt + n := by
    apply Int32.toInt_ofInt_of_le <;> omega
  exact ⟨{ u with impact := .ofInt (u.impact.toInt + n) }, raise_eq_ok.mpr ⟨rfl, hword⟩⟩

theorem raise_failsOnly (n : Nat) (u : BoardUnit) :
  FailsOnly (· = .overflow .add) (u.raise n)
  := by
  rw [raise, Word.exact]
  split
  · apply failsOnly_ok
  · intro fault h
    cases h
    rfl

theorem raise_zero (u : BoardUnit) :
  u.raise 0 = .ok u
  := raise_eq_ok.mpr ⟨rfl, by simp⟩

/-- To be raised by a sum is to be raised by one summand after the other. -/
theorem raise_add :
  u.raise (m + n) = .ok w ↔ ∃ v, u.raise m = .ok v ∧ v.raise n = .ok w
  := by
  simp only [raise_eq_ok]
  constructor
  · rintro ⟨hsame, himpact⟩
    have hhigh := w.impact.toInt_lt
    obtain ⟨v, hv⟩ := exists_raise (u := u) (n := m) (by omega)
    obtain ⟨hvsame, hvimpact⟩ := raise_eq_ok.mp hv
    refine ⟨v, ⟨hvsame, hvimpact⟩, ?_, by omega⟩
    rw [hsame, hvsame]
  · rintro ⟨v, ⟨hv, hvimpact⟩, hw, hwimpact⟩
    constructor
    · rw [hw, hv]
    · omega

/-- A permanent buff of one raises the impact. -/
theorem addBuff_impact_one (u : BoardUnit) :
  u.addBuff .impact 1 .permanent = u.raise 1
  := by
  rw [addBuff, modifyStat, bind_assoc]
  rfl

/-- Nothing but the impact changes. -/
theorem raise_endures (h : u.raise n = .ok v) :
  u.Endures v
  := by
  rw [(raise_eq_ok.mp h).1]
  exact ⟨⟨rfl, rfl, rfl⟩, rfl, id⟩

end BoardUnit

/-! ### Units that are roused -/

/-- The rule block raises the impact of its own unit by one, in any case. -/
structure RuleBlock.Rouses (block : RuleBlock) : Prop where
  condition : block.condition = none
  script : block.script = [.modifyStat .self .impact 1 .permanent]

/-- All rule blocks for a trigger raise the impact of their own unit by one. -/
def Ruleset.Rouses (rules : Ruleset) (trigger : Trigger) : Prop :=
  ∀ card ∈ rules.catalog.cards, ∀ ability ∈ card.abilities, ∀ block ∈ ability.rules,
    block.trigger = trigger → block.Rouses

theorem Ruleset.Rouses.blocksOf {rules : Ruleset} {trigger : Trigger} (h : rules.Rouses trigger)
    {cardId : String} {block : RuleBlock} (hblock : block ∈ rules.blocksOf cardId trigger) :
  block.Rouses
  := by
  obtain ⟨card, hfound, ability, hability, hmem, hsame⟩ := Ruleset.mem_blocksOf hblock
  exact h card (List.mem_of_find?_eq_some hfound) ability hability block hmem hsame

/-- The unit of a uid, if it is on a board, is raised by one, and this is noted. -/
def Ruleset.rouse (rules : Ruleset) (uid : Uid) : Change := fun b =>
  match b.find? uid with
  | some u => do
      let raised ← u.raise 1
      replaceWith raised (rules.label u ++ " IMP +1") b
  | none => Change.done b

variable {rules : Ruleset} {emit : Event → Change} {event : Event} {b : Battle}

/-- A rule block that raises the impact of its own unit rouses it. -/
theorem runBlock_rouses {block : RuleBlock} (h : block.Rouses) (uid : Uid) :
  runBlock rules emit event uid none block = rules.rouse uid
  := by
  funext b
  rw [runBlock, Ruleset.rouse]
  cases hu : b.find? uid with
  | none => rfl
  | some u =>
    have hself : UnitRef.self.resolve? b u event = some u := by
      rw [← Battle.find?_uid hu] at hu
      exact hu
    have happlies : block.applies rules b u event := by
      rw [RuleBlock.applies, h.condition]
      rfl
    have hstep : runScript rules emit u event block.script b
        = stepModifyStat rules emit u event .impact 1 .permanent u b := by
      rw [h.script, runScript, runScript, andThen_done, runStep, onUnit, hself]
    dsimp only [HOrElse.hOrElse, OrElse.orElse, Option.orElse]
    rw [if_pos happlies, hstep, stepModifyStat, u.addBuff_impact_one]
    apply bind_congr_ok
    intro v hv
    have hnote : " " ++ Stat.impact.label ++ " " ++ signedText 1 = " IMP +1" := by decide
    dsimp only
    rw [if_neg (by decide), if_neg (by decide), (BoardUnit.raise_endures hv).toPersists.label,
      ← hnote]
    simp only [String.append_assoc]
    rfl

/-- Rule blocks that raise the impact of their own unit rouse it once each. -/
theorem runBlocks_rouse {blocks : List RuleBlock} (h : ∀ block ∈ blocks, block.Rouses)
    (uid : Uid) :
  forEach (runBlock rules emit event uid none) blocks
    = forEach rules.rouse (List.replicate blocks.length uid)
  := by
  induction blocks with
  | nil => rfl
  | cons block rest ih =>
    rw [forEach, runBlock_rouses (h block List.mem_cons_self),
      ih fun block hblock => h block (List.mem_cons_of_mem _ hblock)]
    rfl

/-! ### Units roused one after another -/

/-- The battle is coherent, and all units of a list are on the boards, changed as they may be. -/
structure Battle.Musters (b : Battle) (l : List BoardUnit) : Prop where
  coherent : b.Coherent
  present : ∀ u ∈ l, ∃ v, b.find? u.uid = some v ∧ u.Persists v

theorem Battle.Coherent.musters (hb : b.Coherent) :
  b.Musters b.units
  := ⟨hb, fun u hu => ⟨u, find?_of_mem hb.distinct hu, .refl u⟩⟩

theorem Battle.Musters.mono {l l' : List BoardUnit} (h : b.Musters l) (hsub : l' ⊆ l) :
  b.Musters l'
  := ⟨h.coherent, fun u hu => h.present u (hsub hu)⟩

/-- The units of a list are still on the boards when one of them is raised. -/
theorem Battle.Musters.raise {l : List BoardUnit} (hb : b.Musters l) {v w : BoardUnit}
    (hv : b.find? v.uid = some v) {n : Nat} (hw : v.raise n = .ok w) (line : String) :
  ((b.replace w).record line).Musters l
  := by
  have hendures := BoardUnit.raise_endures hw
  constructor
  · exact (hb.coherent.replace hv hendures).logs (Battle.record_logs _ _)
  · intro u hu
    obtain ⟨x, hx, hpersists⟩ := hb.present u hu
    have hfind := hb.coherent.find?_replace hv hendures.uid u.uid
    by_cases hsame : u.uid = v.uid
    · rw [hsame, hv] at hx
      obtain rfl := Option.some.inj hx
      rw [if_pos hsame] at hfind
      exact ⟨w, hfind, hpersists.trans hendures.toPersists⟩
    · rw [if_neg hsame, hx] at hfind
      exact ⟨x, hfind, hpersists⟩

/-- The units of a list are still on the boards when one unit is roused. -/
theorem Battle.Musters.rouse {l : List BoardUnit} (hb : b.Musters l) {uid : Uid} {b' : Battle}
    (h : (rules.rouse uid).Leads b b') :
  b'.Musters l
  := by
  obtain ⟨r, h⟩ := h
  rw [Ruleset.rouse] at h
  split at h
  · next v hv =>
    obtain ⟨w, hw, h⟩ := bind_eq_ok.mp h
    rw [leads_report.mp ⟨r, h⟩]
    rw [← Battle.find?_uid hv] at hv
    exact hb.raise hv hw _
  · rw [leads_done.mp ⟨r, h⟩]
    exact hb

theorem changeAll_raise_failsOnly (b : Battle) (n : BoardUnit → Nat) :
  FailsOnly (· = .overflow .add) (b.changeAll fun u => u.raise (n u))
  := Battle.changeAll_failsOnly fun u _ => u.raise_failsOnly (n u)

/-- Of the numbers by which units are raised only those of units on the boards matter. -/
theorem changeAll_raise_congr {n n' : BoardUnit → Nat} (h : ∀ u ∈ b.units, n' u = n u) :
  b.changeAll (fun u => u.raise (n' u)) = b.changeAll fun u => u.raise (n u)
  := by
  apply eq_of_ok_iff _ (changeAll_raise_failsOnly b n') (changeAll_raise_failsOnly b n)
  intro m
  rw [Battle.changeAll_eq_ok, Battle.changeAll_eq_ok]
  constructor
  · intro hm
    apply hm.mono
    intro u hu v _ hv
    rwa [h u hu] at hv
  · intro hm
    apply hm.mono
    intro u hu v _ hv
    rwa [h u hu]

/-- When a unit is raised, it is another one in its place, and all others are the same. -/
theorem Battle.Coherent.inPlace_raise (hb : b.Coherent) {v w : BoardUnit}
    (hv : b.find? v.uid = some v) {n : Nat} (hw : v.raise n = .ok w) :
  b.InPlace (fun x y => (x = v ∧ y = w) ∨ (x.uid ≠ v.uid ∧ y = x)) (b.replace w)
  := by
  apply (hb.inPlace_replace hv (BoardUnit.raise_endures hw).uid).mono
  rintro x hx y - rfl
  by_cases hsame : x.uid = v.uid
  · have hfind := find?_of_mem hb.distinct hx
    rw [hsame, hv] at hfind
    exact .inl ⟨(Option.some.inj hfind).symm, if_pos hsame⟩
  · exact .inr ⟨hsame, if_neg hsame⟩

/-- To raise one unit first and then all units is to raise all units, that one by one more. -/
theorem raise_first (hb : b.Coherent) {v : BoardUnit} (hv : b.find? v.uid = some v)
    (n : Uid → Nat) :
  (v.raise 1 >>= fun w => (b.replace w).changeAll fun x => x.raise (n x.uid))
    = b.changeAll fun x => x.raise ((if x.uid = v.uid then 1 else 0) + n x.uid)
  := by
  apply eq_of_ok_iff (e := .overflow .add)
  · intro m
    rw [bind_eq_ok, Battle.changeAll_eq_ok]
    constructor
    · rintro ⟨w, hw, hm⟩
      apply ((hb.inPlace_raise hv hw).trans (Battle.changeAll_eq_ok.mp hm)).mono
      rintro x - z - ⟨y, ⟨rfl, rfl⟩ | ⟨hother, rfl⟩, hz⟩
      · rw [if_pos rfl]
        rw [(BoardUnit.raise_endures hw).uid] at hz
        exact BoardUnit.raise_add.mpr ⟨_, hw, hz⟩
      · rw [if_neg hother, Nat.zero_add]
        exact hz
    · intro hm
      obtain ⟨z, -, hz⟩ := hm.exists_of_find? (fun _ _ h => (BoardUnit.raise_endures h).uid) hv
      rw [if_pos rfl] at hz
      obtain ⟨w, hw, -⟩ := BoardUnit.raise_add.mp hz
      refine ⟨w, hw, Battle.changeAll_eq_ok.mpr ?_⟩
      apply ((hb.inPlace_raise hv hw).symm.trans hm).mono
      rintro y - z - ⟨x, ⟨rfl, rfl⟩ | ⟨hother, rfl⟩, hz⟩
      · rw [if_pos rfl] at hz
        obtain ⟨w, hw', hz⟩ := BoardUnit.raise_add.mp hz
        obtain rfl := Except.ok.inj (hw.symm.trans hw')
        rw [(BoardUnit.raise_endures hw).uid]
        exact hz
      · rwa [if_neg hother, Nat.zero_add] at hz
  · apply (v.raise_failsOnly 1).bind
    intro w _
    apply changeAll_raise_failsOnly
  · apply changeAll_raise_failsOnly

theorem Battle.changeAll_record (b : Battle) (line : String)
    (f : BoardUnit → Except Fault BoardUnit) :
  (b.record line).changeAll f = (b.changeAll f).map fun m => m.record line
  := by
  rw [changeAll, changeAll]
  cases h0 : b.side0.board.changeAll f <;> cases h1 : b.side1.board.changeAll f <;>
    simp only [record, h0, h1] <;> rfl

/-- Rousing units one after another raises all units at once, each as often as it is among them. -/
theorem forEach_rouse {l : List BoardUnit} (hb : b.Musters l) :
  forEach (fun u => rules.rouse u.uid) l b
    = (b.changeAll fun v => v.raise (l.countP fun u => u.uid = v.uid)).map fun m =>
      ({ m with log := m.log ++ l.map fun u => rules.label u ++ " IMP +1" },
        { stepsRun := l.length })
  := by
  induction l generalizing b with
  | nil =>
    have hnone : b.changeAll (fun v => v.raise 0) = .ok b :=
      Battle.changeAll_eq_ok.mpr (.refl BoardUnit.raise_zero b)
    simp only [List.countP_nil, hnone, forEach, done, Except.map, List.map_nil, List.append_nil,
      List.length_nil]
  | cons u rest ih =>
    obtain ⟨v, hv, hpersists⟩ := hb.present u List.mem_cons_self
    have hrouse : rules.rouse u.uid b
        = v.raise 1 >>= fun w => replaceWith w (rules.label u ++ " IMP +1") b := by
      rw [Ruleset.rouse, hv, ← hpersists.label]
    have hcount : (fun w : BoardUnit => w.raise ((u :: rest).countP fun x => x.uid = w.uid))
        = fun w => w.raise ((if w.uid = v.uid then 1 else 0) + rest.countP fun x => x.uid = w.uid)
        := by
      funext w
      rw [List.countP_cons, Nat.add_comm, hpersists.uid]
      simp only [decide_eq_true_eq, @eq_comm _ u.uid w.uid]
    rw [← hpersists.uid] at hv
    rw [forEach, hcount, ← raise_first hb.coherent hv fun uid => rest.countP fun x => x.uid = uid]
    cases hw : v.raise 1 with
    | error fault =>
      rw [andThen, hrouse, hw]
      rfl
    | ok w =>
      rw [hw] at hrouse
      have hnext := hb.raise hv hw (rules.label u ++ " IMP +1")
      rw [andThen_of_ok hrouse, ih (hnext.mono (List.subset_cons_self u rest)),
        Battle.changeAll_record]
      change _ = ((b.replace w).changeAll _).map _
      cases (b.replace w).changeAll fun x => x.raise (rest.countP fun y => y.uid = x.uid) with
      | error fault => rfl
      | ok m =>
        simp only [Except.map, Battle.record, List.map_cons, List.append_assoc,
          List.singleton_append, Report.append_eq, Report.ran, List.length_cons, Nat.add_comm 1]
        rfl

/-! ### Calls on the units -/

/-- The triggers of events that concern all units, or all units of a player. -/
def Trigger.calls : List Trigger :=
  [.onDeploy, .onUnitMove, .onAttackDeclare, .onAttackHit, .turnStartSelf, .ruleMod, .aura]

/-- How often an event calls on a unit: once for every rule block for its trigger among the
abilities of the card of the unit.  The start of a turn calls on the units of the player only. -/
def Ruleset.callsOn (rules : Ruleset) (event : Event) (u : BoardUnit) : Nat :=
  if event.trigger = .turnStartSelf ∧ u.owner ≠ event.player then 0
  else match rules.cardOf? u with
    | some card =>
        (card.abilities.flatMap Ability.rules).countP fun block => block.trigger = event.trigger
    | none => 0

/-- The lines that the calls on a unit leave in the log. -/
def Ruleset.callLines (rules : Ruleset) (event : Event) (u : BoardUnit) : List String :=
  List.replicate (rules.callsOn event u) (rules.label u ++ " IMP +1")

theorem concerns_of_calls (htrigger : event.trigger ∈ Trigger.calls) (u : BoardUnit) :
  event.concerns u ↔ ¬(event.trigger = .turnStartSelf ∧ u.owner ≠ event.player)
  := by
  simp only [Trigger.calls, List.mem_cons, List.not_mem_nil, or_false] at htrigger
  rcases htrigger with h | h | h | h | h | h | h <;> simp [Event.concerns, h]

theorem departed?_of_calls (htrigger : event.trigger ∈ Trigger.calls) :
  event.departed? = none
  := by
  simp only [Trigger.calls, List.mem_cons, List.not_mem_nil, or_false] at htrigger
  rcases htrigger with h | h | h | h | h | h | h <;> rw [Event.departed?, h]

/-- An event calls on a unit that it concerns once for every rule block for its trigger. -/
theorem Ruleset.callsOn_eq (htrigger : event.trigger ∈ Trigger.calls) (u : BoardUnit) :
  rules.callsOn event u
    = if event.concerns u then (rules.blocksOf u.cardId event.trigger).length else 0
  := by
  have hlength : (rules.blocksOf u.cardId event.trigger).length = match rules.cardOf? u with
      | some card =>
          (card.abilities.flatMap Ability.rules).countP fun block => block.trigger = event.trigger
      | none => 0 := by
    rw [blocksOf, cardOf?]
    cases rules.catalog.find? u.cardId with
    | none => rfl
    | some card =>
      dsimp only [Card.blocksFor, Ability.blocksFor]
      rw [← List.filter_flatMap, List.countP_eq_length_filter]
  rw [callsOn, hlength]
  simp only [concerns_of_calls htrigger, ite_not]

/-- A unit is roused as often as the event calls on it. -/
theorem respond_rouses (htrigger : event.trigger ∈ Trigger.calls)
    (hrules : rules.Rouses event.trigger) {u v : BoardUnit} (hv : b.find? u.uid = some v)
    (hpersists : u.Persists v) :
  respond rules emit event u.uid b
    = forEach rules.rouse (List.replicate (rules.callsOn event u) u.uid) b
  := by
  have hcalls : rules.callsOn event v = rules.callsOn event u := by
    rw [Ruleset.callsOn, Ruleset.callsOn, Ruleset.cardOf?, Ruleset.cardOf?, hpersists.owner,
      hpersists.cardId]
  rw [respond, hv, ← hcalls, Ruleset.callsOn_eq htrigger]
  dsimp only
  split
  · rw [runBlocks_rouse fun _ => hrules.blocksOf]
  · rfl

/-- A broadcast rouses the units in scan order, each as often as its event calls on it. -/
theorem broadcast_rouses (hb : b.Coherent) (htrigger : event.trigger ∈ Trigger.calls)
    (hrules : rules.Rouses event.trigger) :
  broadcast rules emit event b
    = forEach (fun u => rules.rouse u.uid)
      (b.units.flatMap fun u => List.replicate (rules.callsOn event u) u) b
  := by
  rw [broadcast, Event.recipients, departed?_of_calls htrigger]
  dsimp only
  rw [forEach_map, forEach_flatMap]
  apply forEach_congr (P := fun m => m.Musters b.units) _ _ hb.musters
  · intro u hu m hm
    obtain ⟨v, hv, hpersists⟩ := hm.present u hu
    rw [respond_rouses htrigger hrules hv hpersists, ← List.map_replicate, forEach_map]
  · intro u _ m m' hm h
    apply forEach_keeps _ hm h
    intro _ _ c c' hc hrouse
    exact hc.rouse hrouse

/-- In a list of units each comes as often as it is repeated. -/
theorem countP_repeated {l : List BoardUnit} (hdistinct : (l.map BoardUnit.uid).Nodup)
    (n : BoardUnit → Nat) {u : BoardUnit} (hu : u ∈ l) :
  (l.flatMap fun v => List.replicate (n v) v).countP (fun v => v.uid = u.uid) = n u
  := by
  have hcount : ∀ v : BoardUnit, (List.replicate (n v) v).countP (fun v => v.uid = u.uid)
      = if v.uid = u.uid then n v else 0 := by
    intro v
    rw [List.countP_replicate]
    simp only [decide_eq_true_eq]
  induction l with
  | nil => cases hu
  | cons v rest ih =>
    obtain ⟨hfresh, hrest⟩ := List.nodup_cons.mp hdistinct
    rw [List.flatMap_cons, List.countP_append, hcount]
    rcases List.mem_cons.mp hu with rfl | hu
    · have hothers : ∀ w ∈ rest.flatMap fun v => List.replicate (n v) v, w.uid ≠ u.uid := by
        intro w hw heq
        obtain ⟨v, hv, hwv⟩ := List.mem_flatMap.mp hw
        rw [List.eq_of_mem_replicate hwv] at heq
        exact hfresh (heq ▸ List.mem_map_of_mem hv)
      rw [if_pos rfl, List.countP_eq_zero.mpr (by simpa using hothers), Nat.add_zero]
    · have hne : v.uid ≠ u.uid := fun heq => hfresh (heq ▸ List.mem_map_of_mem hu)
      rw [if_neg hne, ih hrest hu, Nat.zero_add]

namespace Ruleset

/-- What comes of an event that calls on units is that all units are raised at once, each as often
as the event calls on it. -/
theorem emit_rouses (hb : b.Coherent) (htrigger : event.trigger ∈ Trigger.calls)
    (hrules : rules.Rouses event.trigger) (hdepth : event.depth ≤ rules.settings.maxTriggerDepth)
    {b' : Battle} {r : Report} :
  rules.emit event b = .ok (b', r)
    ↔ ∃ m, b.changeAll (fun u => u.raise (rules.callsOn event u)) = .ok m
      ∧ b' = { m with log := b.log ++ b.units.flatMap (rules.callLines event) }
      ∧ r = { stepsRun := (b.units.flatMap (rules.callLines event)).length }
  := by
  let called := b.units.flatMap fun u => List.replicate (rules.callsOn event u) u
  have hmusters : b.Musters called := by
    apply hb.musters.mono
    intro u hu
    obtain ⟨v, hv, hrepeated⟩ := List.mem_flatMap.mp hu
    rwa [List.eq_of_mem_replicate hrepeated]
  have hcount : ∀ u ∈ b.units, called.countP (fun v => v.uid = u.uid) = rules.callsOn event u :=
    fun u hu => countP_repeated hb.distinct (rules.callsOn event) hu
  have hlines : called.map (fun u => rules.label u ++ " IMP +1")
      = b.units.flatMap (rules.callLines event) := by
    simp only [called, List.map_flatMap, List.map_replicate]
    rfl
  have hlength : called.length = (b.units.flatMap (rules.callLines event)).length := by
    rw [← hlines, List.length_map]
  have hchanges : b.changeAll (fun u => u.raise (called.countP fun v => v.uid = u.uid))
      = b.changeAll fun u => u.raise (rules.callsOn event u) := changeAll_raise_congr hcount
  rw [emit_of_le hdepth, broadcast_rouses hb htrigger hrules, forEach_rouse hmusters, hchanges,
    hlines, hlength]
  cases hm : b.changeAll fun u => u.raise (rules.callsOn event u) with
  | error fault => simp [Except.map]
  | ok m =>
    have hlog : m.log = b.log := by
      rw [(Battle.changeAll_eq_ok.mp hm).frame]
    simp only [Except.map, hlog, Except.ok.injEq, Prod.mk.injEq, exists_eq_left', eq_comm]

end Ruleset

/-- The broadcast of an event calls on all units in scan order, as often as their cards say, and
does nothing else; it stops only where the impact of a unit has no room for so many calls. -/
theorem broadcast_counted (hb : b.corruption? = none) (htrigger : event.trigger ∈ Trigger.calls)
    (hrules : rules.Rouses event.trigger) (hdepth : event.depth ≤ rules.settings.maxTriggerDepth) :
  ((∃ result, rules.emit event b = .ok result)
      ↔ ∀ u ∈ b.units, u.impact.toInt + rules.callsOn event u < 0x80000000)
    ∧ ∀ b' r, rules.emit event b = .ok (b', r) →
      b.InPlace (fun u v => v = { u with impact := v.impact }
        ∧ v.impact.toInt = u.impact.toInt + rules.callsOn event u) { b' with log := b.log }
      ∧ b'.log = b.log ++ b.units.flatMap (rules.callLines event)
      ∧ r = { stepsRun := (b.units.flatMap (rules.callLines event)).length }
  := by
  have hcoherent := (Battle.corruption?_eq_none_iff.mp hb).toCoherent
  constructor
  · constructor
    · rintro ⟨⟨b', r⟩, h⟩ u hu
      obtain ⟨m, hm, -⟩ := (Ruleset.emit_rouses hcoherent htrigger hrules hdepth).mp h
      obtain ⟨v, -, hv⟩ := (Battle.changeAll_eq_ok.mp hm).exists_of_find?
        (fun _ _ h => (BoardUnit.raise_endures h).uid) (Battle.find?_of_mem hcoherent.distinct hu)
      rw [← (BoardUnit.raise_eq_ok.mp hv).2]
      exact v.impact.toInt_lt
    · intro hroom
      have hraises : FailsNever (b.changeAll fun u => u.raise (rules.callsOn event u)) := by
        apply Battle.changeAll_failsOnly
        intro u hu
        obtain ⟨v, hv⟩ := BoardUnit.exists_raise (hroom u hu)
        rw [hv]
        apply failsOnly_ok
      obtain ⟨m, hm⟩ := hraises.exists_ok
      exact ⟨_, (Ruleset.emit_rouses hcoherent htrigger hrules hdepth).mpr ⟨m, hm, rfl, rfl⟩⟩
  · intro b' r h
    obtain ⟨m, hm, rfl, rfl⟩ := (Ruleset.emit_rouses hcoherent htrigger hrules hdepth).mp h
    have hplaces := Battle.changeAll_eq_ok.mp hm
    have hlog : b.log = m.log := by rw [hplaces.frame]
    refine ⟨?_, rfl, rfl⟩
    rw [show ({ m with log := b.log } : Battle) = m by rw [hlog]]
    apply hplaces.mono
    intro u _ v _ hv
    exact BoardUnit.raise_eq_ok.mp hv

/-- The move of a unit calls on one unit of a duel four times, and then on the other one once. -/
theorem broadcast_counted_duel :
  let block : RuleBlock :=
    { trigger := .onUnitMove, script := [.modifyStat .self .impact 1 .permanent] }
  let often : Ability := { kind := .passive, rules := [block, block] }
  let once : Ability := { kind := .passive, rules := [block] }
  let rules : Ruleset := { catalog := ⟨[
    { id := "mourner", name := "Mourner", abilities := [often, often] },
    { id := "scout", name := "Scout", abilities := [once] }], by decide⟩ }
  let event : Event := { trigger := .onUnitMove, player := 0, mover := some ⟨1⟩ }
  Battle.duel.corruption? = none ∧ rules.Rouses .onUnitMove
    ∧ ∃ b', rules.emit event .duel = .ok (b', { stepsRun := 5 })
      ∧ b'.log = ["Mourner (u_1) IMP +1", "Mourner (u_1) IMP +1", "Mourner (u_1) IMP +1",
        "Mourner (u_1) IMP +1", "Scout (u_2) IMP +1"]
  := by
  intro block often once rules event
  have hb : Battle.duel.corruption? = none := by decide
  have htrigger : event.trigger ∈ Trigger.calls := by decide
  have hdepth : event.depth ≤ rules.settings.maxTriggerDepth := by decide
  have hrules : rules.Rouses .onUnitMove := by
    intro card hcard ability hability x hx _
    have hsame : x = block := by
      rcases List.mem_pair.mp hcard with rfl | rfl
      · obtain rfl : ability = often := by simpa using hability
        simpa [often] using hx
      · obtain rfl : ability = once := by simpa using hability
        simpa [once] using hx
    rw [hsame]
    exact ⟨rfl, rfl⟩
  obtain ⟨hruns, hresult⟩ := broadcast_counted hb htrigger hrules hdepth
  obtain ⟨⟨b', r⟩, h⟩ := hruns.mpr (by decide)
  obtain ⟨-, hlog, rfl⟩ := hresult b' r h
  exact ⟨hb, hrules, b', h, hlog⟩

end CardBattle
