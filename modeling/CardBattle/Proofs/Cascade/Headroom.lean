import CardBattle.Proofs.BoardUnit.Headroom
import CardBattle.Proofs.Cascade.Overflow

/-!
# Headroom in a cascade

What a script can take of the room that the statistics of units have is known from its steps
(`scriptStrain`).  If the rule blocks of each card for one trigger strain statistics by no
more than a bound, then a broadcast costs that much for each unit that can answer, and no more
than that however many units are eliminated in its course: the room for what their
eliminations can cost is set aside for every unit on the boards (`Battle.HasRoom`), and is
free for it when the unit departs.  Where there is room for its cost, a cascade has a result
(`Change.Costs`, `emit_costs`).
-/

namespace CardBattle

open Relation (ReflTransGen)
open Change

mutual

/-- How much room of a statistic a step can need. -/
def Step.strain : Step → Nat
  | .heal _ amount => amount.toInt.toNat
  | .healAllies amount _ => amount.toInt.toNat
  | .modifyStat _ _ delta _ => 2 * delta.toInt.natAbs
  | .branch _ thenSteps elseSteps => max (scriptStrain thenSteps) (scriptStrain elseSteps)
  | _ => 0

/-- How much room of a statistic the steps of a script can need. -/
def scriptStrain : List Step → Nat
  | [] => 0
  | step :: rest => step.strain + scriptStrain rest

end

/-- How much room of a statistic a step of a form can need. -/
def Form.strain : Form → Nat
  | .unit _ t => t.strain
  | .each _ t _ => t.strain
  | _ => 0

theorem Step.strain_form {step : Step} {form : Form} (h : step.form? = some form) :
  step.strain = form.strain
  := by cases step <;> cases h <;> rfl

/-- How much room of a statistic the scripts of rule blocks can need. -/
def blocksStrain : List RuleBlock → Nat
  | [] => 0
  | block :: rest => scriptStrain block.script + blocksStrain rest

/-- How much room the events of one elimination can need, where `strain` bounds what one unit
can need to answer one event: there are three events, to each of which the departed unit and
twelve others can answer. -/
def eliminationStrain (strain : Nat) : Nat :=
  3 * (13 * strain)

/-- The units on the boards and one that has departed answer to an event. -/
theorem Event.length_recipients_le (event : Event) (b : Battle) :
  (event.recipients b).length ≤ 13
  := by
  have hunits := b.length_units_le
  unfold recipients
  split
  · next gone _ =>
    rw [(insertUid_perm b gone _).length_eq, List.length_cons, List.length_map]
    omega
  · rw [List.length_map]
    omega

namespace Battle

/-- Every unit has the given room besides what the eliminations of all units can need. -/
def HasRoom (strain room : Nat) (b : Battle) : Prop :=
  ∀ u ∈ b.units, u.HasRoom (room + eliminationStrain strain * b.units.length)

variable {strain room room' : Nat} {b b' : Battle} {u v : BoardUnit}

theorem HasRoom.mono (hb : b.HasRoom strain room) (h : room' ≤ room) :
  b.HasRoom strain room'
  := by
  intro u hu
  apply (hb u hu).mono
  omega

theorem HasRoom.of_units (hb : b.HasRoom strain room) (h : b'.units = b.units) :
  b'.HasRoom strain room
  := by
  intro u hu
  rw [h] at hu ⊢
  apply hb u hu

/-- One unit is replaced by one that has room. -/
theorem HasRoom.replace (hb : b.Coherent) (hroom : b.HasRoom strain room)
    (hu : b.find? u.uid = some u) (huid : v.uid = u.uid)
    (hv : v.HasRoom (room + eliminationStrain strain * b.units.length)) :
  (b.replace v).HasRoom strain room
  := by
  obtain ⟨l, r, hold, hnew⟩ := hb.units_replace hu huid
  have hlength : (b.replace v).units.length = b.units.length := by
    rw [hold, hnew]
    simp
  rw [HasRoom, hlength]
  apply hb.forall_replace hu huid hv hroom

/-- One unit is treated and has room afterwards. -/
theorem HasRoom.treated {t : Treatment} {turn : UInt32} {o : Outcome} (hb : b.Coherent)
    (hroom : b.HasRoom strain room) (hu : b.find? u.uid = some u) (ho : t.treat turn u = .ok o)
    (hkept : (o.unit?.getD u).HasRoom (room + eliminationStrain strain * b.units.length))
    (rules : Ruleset) :
  (o.apply rules u b).HasRoom strain room
  := by
  apply HasRoom.of_units _ (o.apply_logs rules u b).units_eq
  cases hv : o.unit? with
  | none => exact hroom
  | some v =>
    rw [hv] at hkept
    exact hroom.replace hb hu (t.undergoes ho hv).alters.endures.uid hkept

/-- The room that is set aside for the elimination of a unit is free when it departs. -/
theorem HasRoom.departs {gone : BoardUnit} (hroom : b.HasRoom strain room)
    (h : Departs gone b b') :
  b'.HasRoom strain (room + eliminationStrain strain)
  := by
  have hlength := h.length_units
  intro u hu
  apply (hroom u (h.subset_units hu)).mono
  rw [← hlength, Nat.mul_add_one]
  omega

/-- All units are changed in place and keep their room. -/
theorem HasRoom.changeAll {f : BoardUnit → Except Fault BoardUnit}
    (hroom : b.HasRoom strain room)
    (hf : ∀ room u, u.HasRoom room → ∃ v, f u = .ok v ∧ v.HasRoom room) :
  ∃ b', b.changeAll f = .ok b' ∧ b'.HasRoom strain room
  := by
  have hall : FailsNever (b.changeAll f) := by
    apply changeAll_failsOnly
    intro u hu
    obtain ⟨v, hv, -⟩ := hf _ u (hroom u hu)
    rw [hv]
    apply failsOnly_ok
  obtain ⟨b', hb'⟩ := hall.exists_ok
  have hunits := changeAll_units hb'
  use b', hb'
  intro v hv
  obtain ⟨i, hi⟩ := List.mem_iff_getElem?.mp hv
  obtain ⟨u, hu, huv⟩ := Board.getElem?_of_forall hunits hi
  obtain ⟨w, hw, hkept⟩ := hf _ u (hroom u (List.mem_of_getElem? hu))
  obtain rfl := Except.ok.inj (huv.symm.trans hw)
  rw [← hunits.length_eq]
  apply hkept

/-- Some units are changed one after another and keep their room, which is not less than is
needed. -/
theorem HasRoom.changeEach {f : BoardUnit → Except Fault BoardUnit}
    (hf : ∀ n u, room ≤ n → u.HasRoom n → ∃ v, f u = .ok v ∧ u.Endures v ∧ v.HasRoom n)
    (uids : List Uid) (hb : b.Coherent) (hroom : b.HasRoom strain room) :
  ∃ b', b.changeEach f uids = .ok b' ∧ b'.HasRoom strain room
  := by
  induction uids generalizing b with
  | nil => exact ⟨b, rfl, hroom⟩
  | cons uid rest ih =>
    rw [Battle.changeEach]
    split
    · next u hu =>
      obtain rfl := find?_uid hu
      obtain ⟨v, hv, hendures, hkept⟩ := hf _ u (Nat.le_add_right _ _) (hroom u (mem_of_find? hu))
      obtain ⟨b', hb', hroom'⟩ := ih (hb.replace hu hendures)
        (hroom.replace hb hu hendures.uid hkept)
      exact ⟨b', bind_eq_ok.mpr ⟨v, hv, hb'⟩, hroom'⟩
    · apply ih hb hroom

end Battle

/-- Where units have room for the cost, the change has a result and takes no more room. -/
def Change.Costs (strain cost : Nat) (c : Change) (b : Battle) : Prop :=
  ∀ room, b.HasRoom strain (room + cost) → ∃ b', c.Leads b b' ∧ b'.HasRoom strain room

namespace Change

variable {strain cost cost' room : Nat} {b m : Battle}

theorem Costs.mono {c : Change} (h : c.Costs strain cost b) (hcost : cost ≤ cost') :
  c.Costs strain cost' b
  := by
  intro room hb
  apply h room
  apply hb.mono
  omega

/-- A change that units have room for does not fail. -/
theorem Costs.failsNever {c : Change} (h : c.Costs strain cost b) (hb : b.HasRoom strain cost) :
  FailsNever (c b)
  := by
  obtain ⟨b', ⟨r, hc⟩, -⟩ := h 0 (hb.mono (by omega))
  rw [hc]
  apply failsOnly_ok

/-- A change takes no more room than it costs. -/
theorem Costs.hasRoom {c : Change} (h : c.Costs strain cost b)
    (hb : b.HasRoom strain (room + cost)) (hc : c.Leads b m) :
  m.HasRoom strain room
  := by
  obtain ⟨b', hc', hroom⟩ := h room hb
  rw [hc.unique hc']
  exact hroom

/-- A change that leaves the units as they are costs nothing. -/
theorem costs_of_units {c : Change} (h : c.Leads b m) (hunits : m.units = b.units) :
  c.Costs strain 0 b
  := fun _ hb => ⟨m, h, hb.of_units hunits⟩

theorem costs_report (r : Report) (b : Battle) :
  (report r).Costs strain 0 b
  := costs_of_units (leads_report.mpr rfl) rfl

/-- Costs add up where one change follows another. -/
theorem Costs.andThen {first second : Change} (hfirst : first.Costs strain cost b)
    (hsecond : ∀ m, first.Leads b m → second.Costs strain cost' m) :
  (first.andThen second).Costs strain (cost + cost') b
  := by
  intro room hb
  obtain ⟨m, hm, hroom⟩ := hfirst (room + cost') (hb.mono (by omega))
  obtain ⟨b', hb', hroom⟩ := hsecond m hm room hroom
  exact ⟨b', leads_andThen.mpr ⟨m, hm, hb'⟩, hroom⟩

/-- Changes in sequence cost what each costs where a property holds that all of them keep. -/
theorem costs_forEach {α : Type} {P : Battle → Prop} {f : α → Change}
    (hf : ∀ a b, P b → (f a).Costs strain cost b)
    (hkeep : ∀ a b b', P b → (f a).Leads b b' → P b') (l : List α) {b : Battle} (hb : P b) :
  (forEach f l).Costs strain (l.length * cost) b
  := by
  induction l generalizing b with
  | nil =>
    rw [List.length_nil, Nat.zero_mul]
    apply costs_report
  | cons a l ih =>
    rw [List.length_cons, Nat.add_one_mul, Nat.add_comm]
    apply (hf a b hb).andThen
    intro m hm
    apply ih (hkeep a b m hb hm)

end Change

section

variable {rules : Ruleset} {emit : Event → Change} {actor : BoardUnit} {event : Event}
  {strain cost : Nat} {b m : Battle} {u v : BoardUnit}

/-! ### Steps that cause no event -/

theorem onUnit_costs {ref : UnitRef} {act : BoardUnit → Change}
    (hact : ∀ u, b.find? u.uid = some u → (act u).Costs strain cost b) :
  (onUnit actor event ref act).Costs strain cost b
  := by
  intro room hroom
  cases hu : ref.resolve? b actor event with
  | none => exact ⟨b, onUnit_leads.mpr (.inl ⟨hu, rfl⟩), hroom.mono (Nat.le_add_right _ _)⟩
  | some u =>
    obtain ⟨b', h, hroom'⟩ := hact u (find?_of_resolve? hu) room hroom
    exact ⟨b', onUnit_leads.mpr (.inr ⟨u, hu, h⟩), hroom'⟩

theorem Tending.runEach_costs (filter : UnitFilter) (t : Tending) (remark? : Option String)
    (hb : b.Coherent) :
  (t.runEach rules actor filter remark?).Costs strain t.strain b
  := by
  intro room hroom
  have htend : ∀ n u, room + t.strain ≤ n → u.HasRoom n →
      ∃ v, t.change b.turn u = .ok v ∧ u.Endures v ∧ v.HasRoom n := by
    intro n u hn hu
    obtain ⟨o, ho, hkept⟩ := hu.tend (show t.strain ≤ n by omega) b.turn
    have hv : t.change b.turn u = .ok (o.unit?.getD u) := bind_eq_ok.mpr ⟨o, ho, rfl⟩
    exact ⟨_, hv, (Tending.change_undergoes hv).alters.endures, hkept⟩
  obtain ⟨m, hm, hkept⟩ := hroom.changeEach htend
    ((filter.select rules b actor).map BoardUnit.uid) hb
  refine ⟨_, ⟨_, bind_eq_ok.mpr ⟨m, hm, rfl⟩⟩, ?_⟩
  apply (hkept.mono (Nat.le_add_right _ _)).of_units
  exact (Outcome.apply_logs rules actor { remark? } m).units_eq

theorem Dealing.run_costs (d : Dealing) :
  (d.run actor).Costs strain 0 b
  := by
  intro room hroom
  unfold Leads run
  split
  · exact ⟨b, ⟨_, rfl⟩, hroom⟩
  · next side hside =>
    have hunits := Battle.units_shift hside (d.shifts side).board
    refine ⟨_, ⟨_, rfl⟩, hroom.of_units ?_⟩
    rw [(Battle.foldl_record_logs _ _ _).units_eq]
    exact hunits

theorem stepPeekHand_costs (count : UInt32) :
  (stepPeekHand rules actor count).Costs strain 0 b
  := by
  intro room hroom
  unfold Leads stepPeekHand
  dsimp only
  split
  · exact ⟨b, ⟨_, rfl⟩, hroom⟩
  · exact ⟨_, ⟨_, rfl⟩, hroom.of_units rfl⟩

theorem stepSwap_costs (hb : b.Coherent) (first second : UnitRef) :
  (stepSwap rules actor event first second).Costs strain 0 b
  := by
  intro room hroom
  obtain ⟨b', r, h, hspec⟩ := stepSwap_spec hb rules actor event first second
  use b', ⟨r, h⟩
  obtain rfl | ⟨m, hm, -, hlogs⟩ := hspec
  · exact hroom
  · apply Battle.HasRoom.of_units _ hlogs.units_eq
    rw [Battle.HasRoom, hm.length_units]
    apply hm.forall_units _ hroom
    intro u cell hu
    apply hu.elsewhere

section

variable (hmoves : ∀ event b b', (emit event).Leads b b' → Moves b b')
  (hemit : ∀ event b, b.Shallow 12 event.depth → (emit event).Costs strain (13 * strain) b)

include hmoves hemit

/-! ### Sweeps -/

/-- Events of one depth one after another cost as much as they do one by one. -/
theorem emits_costs {α : Type} (events : α → Event) (l : List α) {depth : UInt32}
    (hdepth : ∀ a, (events a).depth = depth) (hb : b.Shallow 12 depth) :
  (forEach (fun a => emit (events a)) l).Costs strain (l.length * (13 * strain)) b
  := by
  refine costs_forEach ?_ ?_ l hb
  · intro a c hc
    apply hemit
    rw [hdepth a]
    apply hc
  · intro a c c' hc hleads
    apply hc.moves (hmoves _ _ _ hleads)

/-- A sweep costs nothing: what the departure of a unit can cost is set aside for it. -/
theorem sweepUpTo_costs {source : Option Uid} {depth : UInt32} {n : Nat} {b : Battle}
    (hb : b.Coherent) (hdepth : depth.toNat + b.units.length ≤ 13) :
  (sweepUpTo emit source depth n).Costs strain 0 b
  := by
  induction n generalizing b with
  | zero => apply costs_report
  | succ n ih =>
    intro room hroom
    unfold Leads sweepUpTo
    split
    · exact ⟨b, ⟨_, rfl⟩, hroom⟩
    · next owner gone m hremove =>
      have hm : m.Shallow 12 depth := hb.shallow_departs hdepth hremove
      have hannounce := emits_costs hmoves hemit
        (fun trigger => .ofElimination trigger owner gone source depth) Trigger.eliminations
        (fun _ => rfl) hm
      have hfreed : m.HasRoom strain (room + (eliminationStrain strain + 0)) :=
        hroom.departs (hb.departs hremove).2
      apply hannounce.andThen _ room hfreed
      intro c hc
      have hshallow := hm.moves (emits_moves hmoves hc)
      have hdeparted := hshallow.departed
      apply ih hshallow.coherent (by omega)

/-- The sweep after a step of a script on an event for which the battle is shallow. -/
theorem sweepAfter_costs (hb : b.Shallow 12 event.depth) :
  (sweepAfter emit actor event).Costs strain 0 b
  := by
  obtain ⟨depth, hinner, hdepth⟩ := Event.innerDepth_of_shallow hb
  have hdeparted := hb.departed
  intro room hroom
  have hsweep : (sweepWith emit (some actor.uid) depth).Costs strain 0 b :=
    sweepUpTo_costs hmoves hemit hb.coherent (by omega)
  obtain ⟨b', ⟨r, hsweep⟩, hroom'⟩ := hsweep room hroom
  exact ⟨b', ⟨r, bind_eq_ok.mpr ⟨depth, hinner, hsweep⟩⟩, hroom'⟩

/-! ### Scripts -/

theorem Treatment.close_costs (t : Treatment) (hb : b.Shallow 12 event.depth) :
  (t.close emit actor event).Costs strain 0 b
  := by
  intro room hroom
  simp only [close_leads]
  split
  · exact sweepAfter_costs hmoves hemit hb room hroom
  · exact ⟨b, rfl, hroom⟩

/-- The treatment of a unit costs what it takes of the room. -/
theorem Treatment.run_costs (t : Treatment) (hu : b.find? u.uid = some u)
    (hb : b.Shallow 12 event.depth) :
  (t.run rules emit actor event u).Costs strain t.strain b
  := by
  intro room hroom
  have huroom : u.HasRoom (room + eliminationStrain strain * b.units.length + t.strain) := by
    apply (hroom u (Battle.mem_of_find? hu)).mono
    omega
  obtain ⟨o, ho, hkept⟩ := huroom.treat b.turn
  have htreated := (hroom.mono (Nat.le_add_right _ _)).treated hb.coherent hu ho hkept rules
  have hshallow := hb.moves (Treatment.apply_moves rules hu ho)
  obtain ⟨b', hclose, hroom'⟩ := t.close_costs hmoves hemit hshallow room htreated
  exact ⟨b', Treatment.run_leads.mpr ⟨o, ho, hclose⟩, hroom'⟩

/-- A step that does not branch costs no more than what it can need. -/
theorem Form.run_costs (form : Form) (hb : b.Shallow 12 event.depth) :
  (form.run rules emit actor event).Costs strain form.strain b
  := by
  cases form with
  | unit whom t => exact onUnit_costs fun u hu => t.run_costs hmoves hemit hu hb
  | each filter t remark? => exact t.runEach_costs filter remark? hb.coherent
  | cards d => exact d.run_costs
  | peek count => exact stepPeekHand_costs count
  | swap first second => exact stepSwap_costs hb.coherent first second
  | wait choice hplayer => exact costs_of_units ⟨_, rfl⟩ rfl
  | ignored => exact costs_report _ b

/-- A script costs no more than what its steps can need. -/
theorem runScript_costs (script : List Step) (hb : b.Shallow 12 event.depth) :
  (runScript rules emit actor event script).Costs strain (scriptStrain script) b
  := by
  induction script using scriptInduction generalizing b with
  | nil =>
    rw [runScript, scriptStrain]
    apply costs_report
  | form step form rest hform ih =>
    rw [runScript, scriptStrain, Step.strain_form hform, runStep_form hform]
    apply (form.run_costs hmoves hemit hb).andThen
    intro m hm
    rw [← runStep_form hform] at hm
    exact ih (hb.moves (runStep_moves hmoves hm))
  | branch test thenSteps elseSteps rest ihthen ihelse ih =>
    rw [runScript, scriptStrain, Step.strain]
    apply Costs.andThen
    · intro room hroom
      unfold Leads
      rw [runStep_branch]
      split
      · obtain ⟨b', hthen, hroom'⟩ := ihthen hb room (hroom.mono (by omega))
        exact ⟨b', leads_andThen.mpr ⟨b, leads_report.mpr rfl, hthen⟩, hroom'⟩
      · obtain ⟨b', helse, hroom'⟩ := ihelse hb room (hroom.mono (by omega))
        exact ⟨b', leads_andThen.mpr ⟨b, leads_report.mpr rfl, helse⟩, hroom'⟩
    · intro m hm
      exact ih (hb.moves (runStep_moves hmoves hm))

/-! ### Broadcasts -/

theorem runBlock_costs {uid : Uid} {departed : Option BoardUnit} {block : RuleBlock}
    (hb : b.Shallow 12 event.depth) :
  (runBlock rules emit event uid departed block).Costs strain (scriptStrain block.script) b
  := by
  intro room hroom
  have hkept := hroom.mono (Nat.le_add_right _ _)
  unfold Leads runBlock
  split
  · exact ⟨b, ⟨_, rfl⟩, hkept⟩
  · split
    · apply runScript_costs hmoves hemit block.script hb room hroom
    · exact ⟨b, ⟨_, rfl⟩, hkept⟩

theorem runBlocks_costs {uid : Uid} {departed : Option BoardUnit} (blocks : List RuleBlock)
    (hb : b.Shallow 12 event.depth) :
  (forEach (runBlock rules emit event uid departed) blocks).Costs strain (blocksStrain blocks) b
  := by
  induction blocks generalizing b with
  | nil => apply costs_report
  | cons block rest ih =>
    rw [blocksStrain]
    apply (runBlock_costs hmoves hemit hb).andThen
    intro m hm
    apply ih
    apply runBlock_keeps (runScript_shallow hmoves block) hb hm

variable (hrules : ∀ cardId, blocksStrain (rules.blocksOf cardId event.trigger) ≤ strain)

include hrules

theorem respond_costs {uid : Uid} (hb : b.Shallow 12 event.depth) :
  (respond rules emit event uid).Costs strain strain b
  := by
  intro room hroom
  have hkept := hroom.mono (Nat.le_add_right _ _)
  unfold Leads respond
  split
  · split
    · apply (runBlocks_costs hmoves hemit _ hb).mono (hrules _) room hroom
    · exact ⟨b, ⟨_, rfl⟩, hkept⟩
  · split
    · apply (runBlocks_costs hmoves hemit _ hb).mono (hrules _) room hroom
    · exact ⟨b, ⟨_, rfl⟩, hkept⟩

/-- A broadcast costs what the answers of a departed unit and of twelve others cost. -/
theorem broadcast_costs (hb : b.Shallow 12 event.depth) :
  (broadcast rules emit event).Costs strain (13 * strain) b
  := by
  have hcosts : Costs strain ((event.recipients b).length * strain)
      (forEach (respond rules emit event) (event.recipients b)) b := by
    refine costs_forEach ?_ ?_ _ hb
    · intro uid c hc
      apply respond_costs hmoves hemit hrules hc
    · intro uid c c' hc hrespond
      apply respond_keeps (fun _ block _ => runScript_shallow hmoves block) hc hrespond
  apply hcosts.mono
  apply Nat.mul_le_mul_right
  apply event.length_recipients_le

end

end

/-! ### Events -/

theorem blocksStrain_append (blocks blocks' : List RuleBlock) :
  blocksStrain (blocks ++ blocks') = blocksStrain blocks + blocksStrain blocks'
  := by
  induction blocks with
  | nil => rw [List.nil_append, blocksStrain, Nat.zero_add]
  | cons block rest ih => rw [List.cons_append, blocksStrain, blocksStrain, ih, Nat.add_assoc]

/-- An ability of a card strains statistics no more than the card does. -/
theorem Card.blocksStrain_le {card : Card} {ability : Ability} (h : ability ∈ card.abilities)
    (trigger : Trigger) :
  blocksStrain (ability.blocksFor trigger) ≤ blocksStrain (card.blocksFor trigger)
  := by
  obtain ⟨before, after, habilities⟩ := List.append_of_mem h
  rw [blocksFor, habilities, List.flatMap_append, List.flatMap_cons, blocksStrain_append,
    blocksStrain_append]
  omega

namespace Ruleset

/-- No card strains statistics by more than the bound when it answers to a trigger. -/
def Strains (strain : Nat) (rules : Ruleset) : Prop :=
  ∀ card ∈ rules.catalog.cards, ∀ trigger, blocksStrain (card.blocksFor trigger) ≤ strain

variable {rules : Ruleset} {strain : Nat} {b : Battle} (hrules : rules.Strains strain)

include hrules

theorem Strains.blocksOf (cardId : String) (trigger : Trigger) :
  blocksStrain (rules.blocksOf cardId trigger) ≤ strain
  := by
  unfold Ruleset.blocksOf
  split
  · next card hcard =>
    apply hrules
    apply List.mem_of_find?_eq_some hcard
  · apply Nat.zero_le

theorem emitWithin_costs {n : Nat} {event : Event} {b : Battle}
    (hb : b.Shallow 12 event.depth) :
  (rules.emitWithin n event).Costs strain (13 * strain) b
  := by
  induction n generalizing event b with
  | zero => apply (costs_report _ b).mono (Nat.zero_le _)
  | succ n ih =>
    apply broadcast_costs _ _ _ hb
    · intro inner c c'
      apply emitWithin_moves
    · intro inner c hc
      apply ih hc
    · intro cardId
      apply hrules.blocksOf

/-- An event costs what the answers to it cost, and no more for the events nested in it. -/
theorem emit_costs (event : Event) (b : Battle) (hb : b.Shallow 12 event.depth) :
  (rules.emit event).Costs strain (13 * strain) b
  := emitWithin_costs hrules hb

/-- A sweep of a coherent battle costs nothing. -/
theorem sweep_costs (hb : b.Coherent) (source : Option Uid) :
  (rules.sweep source 1).Costs strain 0 b
  := by
  have hlength := b.length_units_le
  apply sweepUpTo_costs rules.emit_moves (emit_costs hrules) hb
  rw [UInt32.toNat_one]
  omega

/-- An activation costs what the card of the ability can need for it. -/
theorem runActivation_costs {uid : Uid} {card : Card} {ability : Ability} {event : Event}
    (hcard : card ∈ rules.catalog.cards) (hability : ability ∈ card.abilities)
    (hb : b.Shallow 12 event.depth) :
  (rules.runActivation uid ability event).Costs strain strain b
  := by
  apply Costs.mono
  · apply runBlocks_costs rules.emit_moves (emit_costs hrules) _ hb
  · exact Nat.le_trans (Card.blocksStrain_le hability .activate) (hrules card hcard .activate)

/-- A refresh of a coherent battle costs two events. -/
theorem refresh_costs (hb : b.Coherent) (player : UInt8) (first second : Trigger) :
  (rules.refresh player first second).Costs strain (2 * (13 * strain)) b
  := by
  intro room hroom
  have hlacks : FailsNever b.lacks := by
    apply mapM_failsOnly
    intro u hu
    obtain ⟨lack, hlack⟩ := (hroom u hu).lack_exists
    rw [hlack]
    apply failsOnly_ok
  obtain ⟨lacks, hlacks⟩ := hlacks.exists_ok
  obtain ⟨m₁, hexpire, hm₁room⟩ := hroom.changeAll fun _ _ hu => hu.expireBuffs .aura
  have hm₁ : m₁.Coherent := hb.changeAll (fun _ _ => BoardUnit.expireBuffs_endures) hexpire
  obtain ⟨m₂, hannounce, hm₂room⟩ := emits_costs rules.emit_moves (emit_costs hrules)
    (fun trigger => { trigger, player }) [first, second] (fun _ => rfl) hm₁.shallow room hm₁room
  have hm₂ : m₂.Coherent := hm₁.moves (emits_moves rules.emit_moves hannounce)
  obtain ⟨m₃, hkeep, hm₃room⟩ := hm₂room.changeAll fun _ _ hu => ⟨_, rfl, hu.keepLack lacks⟩
  have hm₃ : m₃.Coherent := by
    apply hm₂.changeAll _ hkeep
    intro u v hv
    obtain rfl := Except.ok.inj hv
    apply BoardUnit.keepLack_endures
  obtain ⟨b', hsweep, hb'room⟩ := sweep_costs hrules hm₃ none room hm₃room
  refine ⟨b', refresh_leads.mpr ?_, hb'room⟩
  exact ⟨lacks, m₁, m₂, m₃, hlacks, hexpire, hannounce, hkeep, hsweep⟩

end Ruleset

end CardBattle
