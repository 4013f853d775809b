import CardBattle.Proofs.Cascade.Tally

/-!
# Mourners

A mourner is a card whose only ability counts the units that are eliminated: impact all of
them, velocity those of the own side, defence those of the opponent.  If no other card
changes one of these statistics, then every elimination is counted once, however it is
nested: an event credits each mourner that it concerns (`Event.owes`), the three events of an
elimination together credit what the departure has left owing, and so a sweep balances.
-/

namespace CardBattle

open Relation (ReflTransGen)
open Change

/-! ### The cards -/

/-- The rule block that adds one for good to a statistic of its unit. -/
def RuleBlock.mourning (trigger : Trigger) (stat : Stat) : RuleBlock :=
  { trigger, script := [.modifyStat .self stat 1 .permanent] }

/-- The card has one ability, a passive one, with three unconditional rule blocks that count
the units that are eliminated. -/
def Card.Mourns (card : Card) : Prop :=
  ∃ ability, card.abilities = [ability] ∧ ability.kind = .passive
    ∧ ability.rules.Perm [.mourning .onUnitEliminated .impact,
      .mourning .onAllyEliminated .velocity, .mourning .onEnemyEliminated .defence]

/-- No script of the card, at any nesting, changes a statistic that is not allowed. -/
def Card.ModifiesOnly (allowed : Stat → Prop) (card : Card) : Prop :=
  ∀ ability ∈ card.abilities, ∀ block ∈ ability.rules, scriptModifiesOnly allowed block.script

/-- The catalog has a card that mourns, and no other card changes a statistic but vitality. -/
structure Ruleset.HasMourner (rules : Ruleset) (mourner : Card) : Prop where
  member : mourner ∈ rules.catalog.cards
  mourns : mourner.Mourns
  others : ∀ card ∈ rules.catalog.cards, card.id ≠ mourner.id →
    card.ModifiesOnly (· = .vitality)

/-- The statistic that counts eliminations on a trigger. -/
def Trigger.mourned? : Trigger → Option Stat
  | .onUnitEliminated => some .impact
  | .onAllyEliminated => some .velocity
  | .onEnemyEliminated => some .defence
  | _ => none

theorem Trigger.mourned?_ne {trigger : Trigger} {stat : Stat}
    (h : trigger.mourned? = some stat) :
  stat ≠ .vitality
  := by
  rintro rfl
  cases trigger <;> cases h

/-- A card that mourns has one rule block for a trigger that is mourned, and no other. -/
theorem Card.Mourns.blocksFor {card : Card} (h : card.Mourns) (trigger : Trigger) :
  card.blocksFor trigger = trigger.mourned?.toList.map (RuleBlock.mourning trigger)
  := by
  obtain ⟨ability, habilities, -, hrules⟩ := h
  have hblocks : card.blocksFor trigger = ability.blocksFor trigger := by
    unfold Card.blocksFor
    rw [habilities, List.flatMap_cons, List.flatMap_nil, List.append_nil]
  have hperm := hrules.filter fun block => block.trigger = trigger
  rw [hblocks]
  cases trigger with
  | onUnitEliminated => exact List.perm_singleton.mp hperm
  | onAllyEliminated => exact List.perm_singleton.mp hperm
  | onEnemyEliminated => exact List.perm_singleton.mp hperm
  | _ => exact List.perm_nil.mp hperm

namespace Ruleset.HasMourner

variable {rules : Ruleset} {mourner : Card}

theorem blocksOf_mourner (h : rules.HasMourner mourner) (trigger : Trigger) :
  rules.blocksOf mourner.id trigger
    = trigger.mourned?.toList.map (RuleBlock.mourning trigger)
  := by
  have hfound : rules.catalog.find? mourner.id = some mourner :=
    Battle.find?_of_key rules.catalog.distinct h.member
  unfold Ruleset.blocksOf
  rw [hfound]
  apply h.mourns.blocksFor

theorem blocksOf_other (h : rules.HasMourner mourner) {cardId : String}
    (hcard : cardId ≠ mourner.id) {trigger : Trigger} {block : RuleBlock}
    (hblock : block ∈ rules.blocksOf cardId trigger) :
  scriptModifiesOnly (· = .vitality) block.script
  := by
  obtain ⟨card, hfound, ability, hability, hmem, -⟩ := Ruleset.mem_blocksOf hblock
  obtain rfl : card.id = cardId := by simpa using List.find?_some hfound
  apply h.others card (List.mem_of_find?_eq_some hfound) hcard ability hability block hmem

end Ruleset.HasMourner

/-! ### What an event owes -/

/-- The event credits one to the statistic that its trigger mourns of every unit that it
concerns. -/
def Event.owes (event : Event) : Credit := fun _ owner stat =>
  match event.trigger, stat with
  | .onUnitEliminated, .impact => 1
  | .onAllyEliminated, .velocity =>
      if event.eliminated.any (fun gone => gone.owner = owner) then 1 else 0
  | .onEnemyEliminated, .defence =>
      if event.eliminated.any (fun gone => gone.owner ≠ owner) then 1 else 0
  | _, _ => 0

theorem Event.owes_eq (event : Event) (u : BoardUnit) (stat : Stat) :
  event.owes u.uid u.owner stat
    = if event.trigger.mourned? = some stat ∧ event.concerns u then 1 else 0
  := by
  unfold owes concerns
  cases event.trigger <;> cases stat <;> simp [Trigger.mourned?]

/-- The three events of an elimination credit one to every statistic that counts the unit
eliminated. -/
theorem owes_eliminations (player : UInt8) (gone : BoardUnit) (source : Option Uid)
    (depth : UInt32) (uid : Uid) (owner : UInt8) (stat : Stat) :
  (Event.ofElimination .onUnitEliminated player gone source depth).owes uid owner stat
    + (Event.ofElimination .onAllyEliminated player gone source depth).owes uid owner stat
    + (Event.ofElimination .onEnemyEliminated player gone source depth).owes uid owner stat
    = if stat.counts owner gone.owner then 1 else 0
  := by
  cases stat <;> simp [Event.owes, Event.ofElimination, Stat.counts]

/-- An event whose trigger is not mourned owes nothing. -/
theorem Event.owes_of_not_mourned {event : Event} (h : event.trigger.mourned? = none) (uid : Uid)
    (owner : UInt8) (stat : Stat) :
  event.owes uid owner stat = 0
  := by
  unfold owes
  split
  · next htrigger => rw [htrigger] at h; cases h
  · next htrigger => rw [htrigger] at h; cases h
  · next htrigger => rw [htrigger] at h; cases h
  · rfl

/-! ### Recipients -/

/-- The departed unit of an event is on no board. -/
def Event.DepartedFrom (event : Event) (b : Battle) : Prop :=
  ∀ gone, event.departed? = some gone → ∀ u ∈ b.units, u.uid ≠ gone.uid

/-- Every unit is a recipient, and none twice. -/
theorem recipients_spec {b : Battle} (hb : b.Coherent) {event : Event}
    (hevent : event.DepartedFrom b) :
  (event.recipients b).Nodup ∧ ∀ u ∈ b.units, u.uid ∈ event.recipients b
  := by
  unfold Event.recipients
  split
  · next gone hgone =>
    have hperm := insertUid_perm b gone (b.units.map BoardUnit.uid)
    constructor
    · apply hperm.nodup_iff.mpr
      apply List.nodup_cons.mpr ⟨_, hb.distinct⟩
      intro hmem
      obtain ⟨u, hu, heq⟩ := List.mem_map.mp hmem
      apply hevent gone hgone u hu heq
    · intro u hu
      apply hperm.symm.subset
      apply List.mem_cons_of_mem
      apply List.mem_map_of_mem hu
  · use hb.distinct
    intro u hu
    apply List.mem_map_of_mem hu

variable {rules : Ruleset} {mourner : Card} {emit : Event → Change} {actor : BoardUnit}
  {event : Event} {b b' : Battle} {k : Nat}

section

/-! ### The scripts of mourners -/

/-- The script of a mourner does nothing if its unit is on no board; otherwise it changes
the statistic of the unit. -/
theorem mourning_leads {trigger : Trigger} {stat : Stat} (hstat : stat ≠ .vitality)
    (h : (runScript rules emit actor event (RuleBlock.mourning trigger stat).script).Leads b b') :
  (b.find? actor.uid = none ∧ b' = b)
    ∨ ∃ u changed, b.find? actor.uid = some u ∧ u.addBuff stat 1 .permanent = .ok changed
      ∧ b'.units = (b.replace changed).units
  := by
  simp only [RuleBlock.mourning] at h
  rw [runScript] at h
  obtain ⟨m, hstep, hdone⟩ := leads_andThen.mp h
  rw [runScript] at hdone
  obtain rfl := leads_done.mp hdone
  rw [runStep] at hstep
  obtain ⟨r, hstep⟩ := hstep
  unfold onUnit at hstep
  split at hstep
  · next u hu =>
    right
    obtain ⟨changed, hchanged, hstep⟩ := bind_eq_ok.mp hstep
    dsimp only at hstep
    rw [if_neg (fun h => hstat h.1)] at hstep
    rw [leads_report.mp ⟨r, hstep⟩, if_neg (by decide)]
    use u, changed, hu, hchanged
    rfl
  · next hnone =>
    left
    use hnone, leads_report.mp ⟨r, hstep⟩

/-- A mourner that is still on a board adds one to its statistic; one that is not does
nothing. -/
theorem mourning_tallies (hb : b.Coherent) {id : String} {trigger : Trigger} {stat : Stat}
    (hstat : stat ≠ .vitality)
    (h : (runScript rules emit actor event (RuleBlock.mourning trigger stat).script).Leads b b') :
  b.Tallies id (fun uid _ other => if uid = actor.uid then if other = stat then 1 else 0 else 0) b'
  := by
  obtain ⟨hnone, rfl⟩ | ⟨u, changed, hfind, hchanged, hunits⟩ := mourning_leads hstat h
  · apply (Battle.Balances.refl b').congr
    intro u hu _ other _
    rw [if_neg (Battle.uid_ne_of_find? hnone hu)]
  · have huid := Battle.find?_uid hfind
    rw [← huid] at hfind
    obtain ⟨hpersists, hbuffs, hgrown⟩ := BoardUnit.addBuff_permanent_ok hstat hchanged
    have hplain : u.Plain → changed.Plain := by
      intro hu buff hbuff
      rw [hbuffs] at hbuff
      apply hu buff hbuff
    rw [← huid]
    apply Battle.Tallies.congr
    · apply (hb.replace_tallies hfind hpersists hplain hgrown).trans
      apply (Battle.steadies_of_units hunits).balances
    · intro w _ _ other _
      apply Int.add_zero

/-- A rule block runs if it has an actor and applies to it. -/
theorem runBlock_of_applies {uid : Uid} {departed : Option BoardUnit} {block : RuleBlock}
    (hactor : (b.find? uid <|> departed) = some actor)
    (happlies : block.applies rules b actor event) :
  runBlock rules emit event uid departed block b
    = runScript rules emit actor event block.script b
  := by
  unfold runBlock
  rw [hactor]
  exact if_pos happlies

/-! ### Sweeps -/

/-- Broadcasting an event of a depth in a battle of fewer than `k` units credits what the
event owes. -/
def Repays (id : String) (emit : Event → Change) (depth : UInt32) (k : Nat) : Prop :=
  ∀ event b b', event.depth = depth → b.Coherent → b.units.length < k →
    event.DepartedFrom b → (emit event).Leads b b' → b.Tallies id event.owes b'

variable (hmoves : ∀ event b b', (emit event).Leads b b' → Moves b b')

include hmoves

/-- The departure of a unit and its three events balance. -/
theorem departure_balances {id : String} {depth : UInt32} (hrepays : Repays id emit depth k)
    (hb : b.Coherent) (hk : b.units.length ≤ k) {owner : UInt8} {gone : BoardUnit}
    {source : Option Uid} {m : Battle} (hdeparts : Battle.Departs gone b m)
    (h : (forEach (fun trigger => emit (.ofElimination trigger owner gone source depth))
      Trigger.eliminations).Leads m b') :
  b.Balances id b'
  := by
  obtain ⟨m₁, h₁, h⟩ := leads_forEach_cons.mp h
  obtain ⟨m₂, h₂, h⟩ := leads_forEach_cons.mp h
  obtain ⟨m₃, h₃, h⟩ := leads_forEach_cons.mp h
  obtain rfl := leads_done.mp h
  have hm := hdeparts.coherent hb
  have hm₁ := hm.moves (hmoves _ _ _ h₁)
  have hm₂ := hm₁.moves (hmoves _ _ _ h₂)
  have hlength := hdeparts.length_units
  have hlength₁ := hm.length_moves (hmoves _ _ _ h₁)
  have hlength₂ := hm₁.length_moves (hmoves _ _ _ h₂)
  have hunit : m.Tallies id (Event.ofElimination .onUnitEliminated owner gone source depth).owes
      m₁ := by
    apply hrepays _ _ _ rfl hm (by omega) _ h₁
    intro gone' hgone
    obtain rfl := Option.some.inj hgone
    apply hdeparts.fresh hb
  have hally : m₁.Tallies id (Event.ofElimination .onAllyEliminated owner gone source depth).owes
      m₂ := by
    apply hrepays _ _ _ rfl hm₁ (by omega) _ h₂
    intro gone' hgone
    cases hgone
  have henemy : m₂.Tallies id
      (Event.ofElimination .onEnemyEliminated owner gone source depth).owes b' := by
    apply hrepays _ _ _ rfl hm₂ (by omega) _ h₃
    intro gone' hgone
    cases hgone
  apply (((hdeparts.tallies.trans hunit).trans hally).trans henemy).congr
  intro u _ _ stat _
  have howes := owes_eliminations owner gone source depth u.uid u.owner stat
  omega

/-- A sweep balances if the events that it causes credit what they owe. -/
theorem sweepUpTo_balances {id : String} {depth : UInt32} (hrepays : Repays id emit depth k)
    {source : Option Uid} {n : Nat} {b b' : Battle} (hb : b.Coherent) (hk : b.units.length ≤ k)
    (h : (sweepUpTo emit source depth n).Leads b b') :
  b.Balances id b'
  := by
  induction n generalizing b with
  | zero =>
    rw [leads_done.mp h]
    apply Battle.Balances.refl
  | succ n ih =>
    obtain ⟨-, rfl⟩ | ⟨owner, gone, m, m', hremove, hannounce, hrest⟩ := sweepUpTo_leads h
    · apply Battle.Balances.refl
    · have hdeparts := (hb.departs hremove).2
      have hm := hdeparts.coherent hb
      have hannounced := emits_moves hmoves hannounce
      have hlength := hdeparts.length_units
      have hlength' := hm.length_moves hannounced
      apply (departure_balances hmoves hrepays hb hk hdeparts hannounce).trans
      apply ih (hm.moves hannounced) (by omega) hrest

/-! ### Scripts of other cards -/

variable {id : String}
  (hrepays : ∀ depth, event.innerDepth = .ok depth → Repays id emit depth k)

include hrepays

/-- A beat that changes no statistic but vitality balances. -/
theorem Beat.balances (hb : b.Coherent) (hk : b.units.length ≤ k)
    (h : Beat rules emit (· = .vitality) actor event b b') :
  b.Balances id b'
  := by
  cases h with
  | touch h =>
    apply Battle.Steadies.balances
    apply hb.touch_steadies _ _ h
    · intro u v hspares
      apply hspares.alters.endures
    · intro u v hspares
      apply hspares.alters.steady
  | wound hu h hm hsweep =>
    obtain ⟨r, hsweep⟩ := hsweep
    obtain ⟨depth, hdepth, hsweep⟩ := bind_eq_ok.mp hsweep
    have htouch := Touch.alter hu h
    have hendures : ∀ u v : BoardUnit, u.Alters (· = .vitality) v → u.Endures v :=
      fun u v halters => halters.endures
    have hsteadies := hb.touch_steadies hendures (fun u v halters => halters.steady) htouch
    have hlength := hb.length_touch hendures htouch
    have hcoherent := (hb.touch hendures htouch).logs hm
    apply (hsteadies.trans (Battle.steadies_of_units hm.units_eq)).balances.trans
    apply sweepUpTo_balances hmoves (hrepays depth hdepth) hcoherent _ ⟨r, hsweep⟩
    rw [hm.units_eq, hlength]
    apply hk

/-- A script that changes no statistic but vitality balances. -/
theorem runScript_balances {script : List Step}
    (hscript : scriptModifiesOnly (· = .vitality) script) (hb : b.Coherent)
    (hk : b.units.length ≤ k) (h : (runScript rules emit actor event script).Leads b b') :
  b.Balances id b'
  := by
  have hbeats := runScript_beats script hscript h
  clear h
  induction hbeats with
  | refl => apply Battle.Balances.refl
  | tail hbeats hbeat ih =>
    have hbefore := beats_moves hmoves hbeats
    have hlength := hb.length_moves hbefore
    apply ih.trans
    apply hbeat.balances hmoves hrepays (hb.moves hbefore) (by omega)

/-- Rule blocks that change no statistic but vitality balance. -/
theorem runBlocks_balances {uid : Uid} {departed : Option BoardUnit} {blocks : List RuleBlock}
    (hblocks : ∀ block ∈ blocks, scriptModifiesOnly (· = .vitality) block.script)
    (hb : b.Coherent) (hk : b.units.length ≤ k)
    (h : (forEach (runBlock rules emit event uid departed) blocks).Leads b b') :
  b.Balances id b'
  := by
  have hkeeps : Moves b b' ∧ b.Balances id b' := by
    apply forEach_keeps (P := fun c => Moves b c ∧ b.Balances id c) _ _ h
    · rintro block hblock c c' ⟨hbefore, hbalances⟩ hrun
      obtain rfl | ⟨actor, -, hrun⟩ := runBlock_leads hrun
      · use hbefore, hbalances
      · have hlength := hb.length_moves hbefore
        use hbefore.trans (runScript_moves hmoves hrun)
        apply hbalances.trans
        apply runScript_balances hmoves hrepays (hblocks block hblock) (hb.moves hbefore)
          (by omega) hrun
    · use .refl, .refl b
  apply hkeeps.2

end

/-! ### Answers -/

section

variable (hmourner : rules.HasMourner mourner)
  (hmoves : ∀ event b b', (emit event).Leads b b' → Moves b b')
  (hrepays : ∀ depth, event.innerDepth = .ok depth → Repays mourner.id emit depth k)

include hmourner hmoves hrepays

/-- The rule blocks of a mourner add one to the statistic that mourns the trigger, and those
of other units balance. -/
theorem blocksOf_tallies {uid : Uid} {departed : Option BoardUnit}
    (hactor : (b.find? uid <|> departed) = some actor) (hb : b.Coherent)
    (hk : b.units.length ≤ k)
    (h : (forEach (runBlock rules emit event uid departed)
      (rules.blocksOf actor.cardId event.trigger)).Leads b b') :
  b.Tallies mourner.id (fun uid' _ stat =>
    if actor.cardId = mourner.id ∧ uid' = actor.uid ∧ event.trigger.mourned? = some stat then 1
    else 0) b'
  := by
  by_cases hcard : actor.cardId = mourner.id
  · rw [hcard, hmourner.blocksOf_mourner] at h
    cases hmourned : event.trigger.mourned? with
    | none =>
      rw [hmourned] at h
      rw [leads_done.mp h]
      apply (Battle.Balances.refl b).congr
      intro u _ _ stat _
      simp
    | some stat =>
      rw [hmourned] at h
      obtain ⟨m, hrun, hdone⟩ := leads_forEach_cons.mp h
      obtain rfl := leads_done.mp hdone
      obtain ⟨r, hrun⟩ := hrun
      rw [runBlock_of_applies hactor rfl] at hrun
      apply (mourning_tallies hb (Trigger.mourned?_ne hmourned) ⟨r, hrun⟩).congr
      intro u _ _ other _
      by_cases huid : u.uid = actor.uid
      · simp [hcard, huid, eq_comm]
      · simp [huid]
  · have hblocks : ∀ block ∈ rules.blocksOf actor.cardId event.trigger,
        scriptModifiesOnly (· = .vitality) block.script :=
      fun block hblock => hmourner.blocksOf_other hcard hblock
    apply (runBlocks_balances hmoves hrepays hblocks hb hk h).congr
    intro u _ _ stat _
    simp [hcard]

/-- The answer of a unit credits it what the event owes. -/
theorem respond_tallies {uid : Uid} (hb : b.Coherent) (hk : b.units.length ≤ k)
    (h : (respond rules emit event uid).Leads b b') :
  b.Tallies mourner.id (fun uid' owner stat =>
    if uid' = uid then event.owes uid' owner stat else 0) b'
  := by
  obtain ⟨rfl, hconcerns⟩ | ⟨u, hu, hconcerns, hblocks⟩ | ⟨gone, hnone, -, rfl, hblocks⟩ :=
    respond_leads h
  · apply (Battle.Balances.refl b').congr
    intro u hu _ stat _
    split
    · next heq =>
      have hfind := Battle.find?_of_mem hb.distinct hu
      rw [heq] at hfind
      rw [event.owes_eq, if_neg (fun h => hconcerns u hfind h.2)]
    · rfl
  · have hactor : (b.find? uid <|> none) = some u := by rw [hu]; rfl
    apply (blocksOf_tallies hmourner hmoves hrepays hactor hb hk hblocks).congr
    intro w hw hcard stat _
    rw [Battle.find?_uid hu]
    by_cases heq : w.uid = uid
    · have hfind := Battle.find?_of_mem hb.distinct hw
      rw [heq, hu] at hfind
      obtain rfl := Option.some.inj hfind
      rw [event.owes_eq]
      simp [hcard, heq, hconcerns]
    · simp [heq]
  · have hactor : (b.find? gone.uid <|> some gone) = some gone := by rw [hnone]; rfl
    apply (blocksOf_tallies hmourner hmoves hrepays hactor hb hk hblocks).congr
    intro w hw _ stat _
    simp [Battle.uid_ne_of_find? hnone hw]

/-- The answers of units credit them what the event owes. -/
theorem forEach_respond_tallies {uids : List Uid} (huids : uids.Nodup) {b b' : Battle}
    (hb : b.Coherent) (hk : b.units.length ≤ k)
    (h : (forEach (respond rules emit event) uids).Leads b b') :
  b.Tallies mourner.id (fun uid' owner stat =>
    if uid' ∈ uids then event.owes uid' owner stat else 0) b'
  := by
  induction uids generalizing b with
  | nil =>
    rw [leads_done.mp h]
    apply (Battle.Balances.refl b).congr
    intro u _ _ stat _
    simp
  | cons uid rest ih =>
    obtain ⟨huid, hrest⟩ := List.nodup_cons.mp huids
    obtain ⟨m, hfirst, h⟩ := leads_forEach_cons.mp h
    have hbefore : Moves b m := by
      apply respond_moves hmoves hfirst
    have hlength := hb.length_moves hbefore
    have hanswer := respond_tallies hmourner hmoves hrepays hb hk hfirst
    have hanswers := ih hrest (hb.moves hbefore) (by omega) h
    apply (hanswer.trans hanswers).congr
    intro u _ _ stat _
    by_cases heq : u.uid = uid
    · subst heq
      simp [huid]
    · simp [heq]

end

/-! ### Events and sweeps -/

namespace Ruleset

variable (hmourner : rules.HasMourner mourner)

include hmourner

/-- An event that is broadcast within more nested ones than there are units credits what it
owes: every nested event follows on a departure. -/
theorem emitWithin_repays (n : Nat) (depth : UInt32) :
  Repays mourner.id (rules.emitWithin n) depth n
  := by
  induction n generalizing depth with
  | zero =>
    intro event b b' _ _ hlength
    omega
  | succ n ih =>
    intro event b b' _ hb hlength hdeparted h
    obtain ⟨r, h⟩ := h
    obtain ⟨hnodup, hall⟩ := recipients_spec hb hdeparted
    have htallies := forEach_respond_tallies hmourner (fun _ _ _ => emitWithin_moves)
      (fun depth _ => ih depth) hnodup hb (by omega) ⟨r, h⟩
    apply htallies.congr
    intro u hu _ stat _
    rw [if_pos (hall u hu)]

theorem emit_repays (depth : UInt32) :
  Repays mourner.id rules.emit depth (rules.settings.maxTriggerDepth.toNat + 1 - depth.toNat)
  := by
  rintro event b b' rfl
  apply emitWithin_repays hmourner _ _ _ _ _ rfl

variable (hdepth : 12 ≤ rules.settings.maxTriggerDepth.toNat)

include hdepth

/-- An event that is not nested, and that is not mourned, balances. -/
theorem emit_balances (hb : b.Coherent) (hevent : event.depth = 0)
    (hmourned : event.trigger.mourned? = none) (h : (rules.emit event).Leads b b') :
  b.Balances mourner.id b'
  := by
  have hlength := b.length_units_le
  have htallies : b.Tallies mourner.id event.owes b' := by
    apply emit_repays hmourner 0 event b b' hevent hb _ _ h
    · rw [UInt32.toNat_zero]
      omega
    · intro gone hgone
      unfold Event.departed? at hgone
      split at hgone
      · next htrigger =>
        rw [htrigger] at hmourned
        cases hmourned
      · cases hgone
  apply htallies.congr
  intro u _ _ stat _
  apply Event.owes_of_not_mourned hmourned

/-- A sweep that is not nested balances. -/
theorem sweep_balances (hb : b.Coherent) {source : Option Uid}
    (h : (rules.sweep source 1).Leads b b') :
  b.Balances mourner.id b'
  := by
  obtain ⟨r, h⟩ := h
  have hlength := b.length_units_le
  apply sweepUpTo_balances rules.emit_moves (emit_repays hmourner 1) hb _ ⟨r, h⟩
  rw [UInt32.toNat_one]
  omega

/-- The activation of an ability of another card balances. -/
theorem runActivation_balances (hb : b.Coherent) (hevent : event.depth = 0) {uid : Uid}
    {ability : Ability}
    (hability : ∀ block ∈ ability.blocksFor .activate,
      scriptModifiesOnly (· = .vitality) block.script)
    (h : (rules.runActivation uid ability event).Leads b b') :
  b.Balances mourner.id b'
  := by
  have hlength := b.length_units_le
  apply runBlocks_balances rules.emit_moves _ hability hb _ h
  · exact rules.settings.maxTriggerDepth.toNat
  · intro depth hinner
    have hone : event.innerDepth = .ok 1 := by
      unfold Event.innerDepth
      rw [hevent]
      rfl
    obtain rfl := Except.ok.inj (hinner.symm.trans hone)
    apply emit_repays hmourner 1
  · omega

/-- A refresh balances. -/
theorem refresh_balances (hb : b.Coherent) {player : UInt8} {first second : Trigger}
    (hfirst : first.mourned? = none) (hsecond : second.mourned? = none)
    (h : (rules.refresh player first second).Leads b b') :
  b.Balances mourner.id b'
  := by
  obtain ⟨lacks, m₁, m₂, m₃, ⟨hexpire, hm₁⟩, ⟨hannounce, -, -⟩, ⟨hkeep, hm₃⟩, hsweep⟩ :=
    refresh_coherent hb h
  have hexpired : b.Balances mourner.id m₁ := by
    apply Battle.Steadies.balances
    apply Battle.steadies_changeAll _ hexpire
    intro u v hv
    apply BoardUnit.expireBuffs_steady hv
  obtain ⟨m, hannounce₁, hannounce⟩ := leads_forEach_cons.mp hannounce
  obtain ⟨m', hannounce₂, hannounce⟩ := leads_forEach_cons.mp hannounce
  obtain rfl := leads_done.mp hannounce
  have hm := hm₁.moves (rules.emit_moves _ _ _ hannounce₁)
  have hkept : m₂.Balances mourner.id m₃ := by
    apply Battle.Steadies.balances
    apply Battle.steadies_changeAll _ hkeep
    intro u v hv
    obtain rfl := Except.ok.inj hv
    rw [BoardUnit.keepLack_eq]
    exact BoardUnit.steady_of_eq ⟨rfl, rfl, rfl⟩ id rfl rfl rfl
  apply hexpired.trans
  apply (emit_balances hmourner hdepth hm₁ rfl hfirst hannounce₁).trans
  apply (emit_balances hmourner hdepth hm rfl hsecond hannounce₂).trans
  apply hkept.trans
  apply sweep_balances hmourner hdepth hm₃ hsweep

end Ruleset

end CardBattle
