import CardBattle.Proofs.Action.Soundness
import CardBattle.Proofs.Cascade.Depth

/-!
# Limits of depth make no difference to actions

There are at most twelve units on the boards, and an event nested `k` deep is broadcast only
after `k` units have departed.  A limit of twelve or more for how deep events can be nested is
therefore never reached, and what comes of an action does not depend on it
(`depth_limit_never_reached`).
-/

namespace CardBattle

open Change

namespace Ruleset

variable {rules : Ruleset} {limit : UInt32} {b : Battle} {player : UInt8}
  (hrules : 12 ≤ rules.settings.maxTriggerDepth.toNat) (hlimit : 12 ≤ limit.toNat)

include hrules hlimit

theorem emitAndRefresh_limited (hb : b.Coherent) {event : Event} (hevent : event.depth = 0)
    (first second : Trigger) :
  (rules.limited limit).emitAndRefresh event first second b
    = rules.emitAndRefresh event first second b
  := by
  apply andThen_congr
  · apply emit_limited hrules hlimit
    rw [hevent]
    apply hb.shallow
  · intro m hm
    apply refresh_limited hrules hlimit
    apply hb.moves (rules.emit_moves _ _ _ hm)

theorem emitAndSweep_limited (hb : b.Coherent) {event : Event} (hevent : event.depth = 0)
    (source : Option Uid) :
  ((rules.limited limit).emit event).andThen ((rules.limited limit).sweep source 1) b
    = (rules.emit event).andThen (rules.sweep source 1) b
  := by
  apply andThen_congr
  · apply emit_limited hrules hlimit
    rw [hevent]
    apply hb.shallow
  · intro m hm
    apply sweep_limited hrules hlimit
    apply hb.moves (rules.emit_moves _ _ _ hm)

theorem playUnit_limited (hb : b.Coherent) (handIndex : UInt64) (cell : Cell) (card : Card) :
  (rules.limited limit).playUnit player handIndex cell card b
    = rules.playUnit player handIndex cell card b
  := by
  apply bind_congr_ok
  rintro ⟨uid, uids⟩ hissue
  obtain ⟨next, hnext, hissue⟩ := bind_eq_ok.mp (lift_fault_eq_ok.mp hissue)
  obtain ⟨rfl, rfl⟩ := Prod.mk.inj (pure_eq_ok.mp hissue)
  apply bind_congr_ok
  intro side hside
  apply bind_congr_ok
  intro side' htake
  apply bind_congr_ok
  intro m hsettle
  have hside := Battle.sideOf_eq_ok.mp (lift_rejection_eq_ok.mp hside)
  have hdeploys := deploys_of_settle hnext hside (lift_fault_eq_ok.mp htake)
    (lift_rejection_eq_ok.mp hsettle)
  dsimp only
  rw [emitAndRefresh_limited hrules hlimit (hb.deploys (hdeploys _)) rfl]

theorem moveUnit_limited (hb : b.Coherent) (uid : Uid) (cell : Cell) :
  (rules.limited limit).moveUnit player uid cell b = rules.moveUnit player uid cell b
  := by
  apply bind_congr_ok
  intro side hside
  have hside := Battle.sideOf_eq_ok.mp (lift_rejection_eq_ok.mp hside)
  cases htake : side.board.take? uid with
  | none => rfl
  | some taken =>
    apply bind_congr_ok
    intro m hsettle
    have hrelocates := relocates_of_settle hside htake (lift_rejection_eq_ok.mp hsettle)
    obtain ⟨m', -, hm', hlogs⟩ := hb.relocates (hrelocates _)
    dsimp only
    rw [emitAndRefresh_limited hrules hlimit (hm'.logs hlogs) rfl]

theorem attackUnit_limited (hb : b.Coherent) (attacker target : Uid) :
  (rules.limited limit).attackUnit player attacker target b
    = rules.attackUnit player attacker target b
  := by
  have hb' := hb.noteAttacker attacker
  rw [attackUnit, attackUnit]
  dsimp only
  rw [emit_limited hrules hlimit _ _ hb'.shallow]
  apply bind_congr_ok
  rintro ⟨m, r⟩ hm
  have hm : m.Coherent := hb'.moves (rules.emit_moves _ _ _ ⟨r, hm⟩)
  dsimp only
  split
  · next att tgt hatt htgt =>
    apply bind_congr_ok
    rintro ⟨m₁, amount⟩ hstrike
    have htarget : m.find? tgt.uid = some tgt := by
      rw [Battle.find?_uid htgt]
      apply htgt
    have hm₁ := (hm.strike htarget hstrike).logs
      (Battle.record_logs m₁ (strikeLine m₁ player attacker target amount))
    dsimp only
    rw [emitAndSweep_limited hrules hlimit hm₁ rfl]
  · rfl

theorem activate_limited (hb : b.Coherent) (uid : Uid) (slot : UInt8) (target : Option Uid)
    (ability : Ability) :
  (rules.limited limit).activate player uid slot target ability b
    = rules.activate player uid slot target ability b
  := by
  apply bind_congr_ok
  intro side hside
  have hside := Battle.sideOf_eq_ok.mp (lift_rejection_eq_ok.mp hside)
  have hpaid := hb.pays hside ability.discardCost.toNat
  let event : Event := { trigger := .activate, player, source := some uid, target }
  have hrun := fun line lineOf =>
    runActivation_limited hrules hlimit uid ability event (hpaid line lineOf).shallow
  exact congrArg (liftM · >>= _) (hrun _ _)

theorem endTurn_limited (hb : b.Coherent) :
  (rules.limited limit).endTurn b = rules.endTurn b
  := by
  have hreset : ({ b with side0.used := ∅, side1.used := ∅ } : Battle).Coherent :=
    hb.congr hb.active rfl rfl rfl
  have hcycle : (rules.limited limit).endCycle b = rules.endCycle b := by
    apply bind_congr_ok
    intro m hm
    apply sweep_limited hrules hlimit
    apply hreset.changeAll (fun _ _ => BoardUnit.endCycle_endures) hm
  rw [endTurn, endTurn, hcycle]
  apply bind_congr_ok
  rintro ⟨m, r⟩ hm
  obtain ⟨m₁, hm₁, hsweep⟩ := bind_eq_ok.mp hm
  have hm₁ := hreset.changeAll (fun _ _ => BoardUnit.endCycle_endures) hm₁
  have hm := (sweep_sound hm₁ ⟨r, hsweep⟩).toCoherent
  apply bind_congr_ok
  intro m₂ hm₂
  obtain ⟨turn, -, hm₂⟩ := bind_eq_ok.mp hm₂
  obtain rfl := pure_eq_ok.mp hm₂
  rw [emitAndRefresh_limited hrules hlimit _ rfl]
  exact hm.congr (opponentOf_le _) rfl rfl rfl

/-- What becomes of an action that has been checked does not depend on the limit. -/
theorem carryOut_limited (hb : b.Coherent) (permit : Permit) :
  (rules.limited limit).carryOut permit b = rules.carryOut permit b
  := by
  cases permit with
  | playUnit player handIndex cell card => apply playUnit_limited hrules hlimit hb
  | move player uid cell => apply moveUnit_limited hrules hlimit hb
  | attack player attacker target =>
    exact congrArg liftM (attackUnit_limited hrules hlimit hb attacker target)
  | activate player uid slot target ability => apply activate_limited hrules hlimit hb
  | endTurn => exact congrArg liftM (endTurn_limited hrules hlimit hb)

/-- What becomes of an action does not depend on the limit. -/
theorem resolve_limited (b : Battle) (action : Action) :
  (rules.limited limit).resolve b action = rules.resolve b action
  := by
  apply bind_congr_ok
  intro permit hpermit
  have hintegrity := (permit_ok (lift_rejection_eq_ok.mp hpermit)).1
  have hb := (Battle.corruption?_eq_none_iff.mp hintegrity).toCoherent
  rw [carryOut_limited hrules hlimit hb]

end Ruleset

/-- A limit of twelve or more for how deep events can be nested makes no difference to
actions.  An action causes events in three ways: it broadcasts one that is not nested, it
sweeps, or it runs an activation.  In none of them is an event nested deeper than units have
departed since, so that whatever would become of such an event makes no difference, and there
are at most twelve units. -/
theorem depth_limit_never_reached (rules : Ruleset) (limit : UInt32)
    (hrules : 12 ≤ rules.settings.maxTriggerDepth.toNat) (hlimit : 12 ≤ limit.toNat) :
  (∀ b action, (rules.limited limit).resolve b action = rules.resolve b action
    ∧ (rules.limited limit).act b action = rules.act b action)
  ∧ ∀ b : Battle, b.Coherent → b.units.length ≤ 12 ∧ ∀ otherwise,
    (∀ event, event.depth = 0 →
      rules.emitCounted b.units.length otherwise event b = rules.emit event b)
    ∧ (∀ source, sweepWith (rules.emitCounted b.units.length otherwise) source 1 b
      = rules.sweep source 1 b)
    ∧ ∀ event uid (ability : Ability), event.depth = 0 →
      forEach (runBlock rules (rules.emitCounted b.units.length otherwise) event uid none)
        (ability.blocksFor .activate) b = rules.runActivation uid ability event b
  := by
  constructor
  · intro b action
    have hresolve := rules.resolve_limited hrules hlimit b action
    use hresolve
    rw [Ruleset.act, Ruleset.act, hresolve]
  · intro b hb
    use b.length_units_le
    intro otherwise
    have hshallow : ∀ event : Event, event.depth = 0 → b.Shallow b.units.length event.depth := by
      intro event hevent
      rw [hevent]
      apply hb.shallow_units
    refine ⟨?_, ?_, ?_⟩
    · intro event hevent
      apply Ruleset.emitCounted_eq otherwise event b (hshallow event hevent)
    · intro source
      apply Ruleset.sweep_counted otherwise source hb
    · intro event uid ability hevent
      apply runActivation_agree (Ruleset.emitCounted_eq otherwise) uid ability
      apply hshallow event hevent

/-- A unit card whose unit damages another when a unit is eliminated. -/
def Card.domino (id : String) (next : UInt32) : Card :=
  { id
    name := id
    stats := { vitality := 1 }
    abilities := [{
      kind := .passive
      rules := [{ trigger := .onUnitEliminated, script := [.damage (.uid next) 1] }] }] }

/-- The unit that falls first. -/
def BoardUnit.firstDomino : BoardUnit :=
  .ofCard ⟨2⟩ 1 ⟨.front, 0⟩ (.domino "first" 3)

/-- A unit faces the first of three that take one another with them. -/
def Battle.dominoes : Battle :=
  { Battle.duel with
    side1.board := ⟨[some .firstDomino, some (.ofCard ⟨3⟩ 1 ⟨.front, 1⟩ (.domino "second" 4)),
      some (.ofCard ⟨4⟩ 1 ⟨.front, 2⟩ (.domino "third" 5)), none, none, none], rfl⟩
    uids := ⟨5⟩ }

/-- The loser of a duel takes another unit with it, and that one a third.  A limit of one would
save the third, but twelve is as good as sixteen, and no event is nested deeper than there are
units. -/
theorem depth_limit_never_reached_duel :
  let rules : Ruleset :=
    { catalog := ⟨[.domino "first" 3, .domino "second" 4, .domino "third" 5], by decide⟩ }
  let attack : Action := .attack 0 ⟨1⟩ ⟨2⟩
  let leaves (uids : List Uid) (result : Except Stop Resolution) :=
    result.toOption.any fun resolution => resolution.battle.units.map BoardUnit.uid = uids
  let fallen := Battle.dominoes.replace { BoardUnit.firstDomino with vitality := 0 }
  let sweep := sweepWith (rules.emitCounted 4 fun _ _ => .error .nestedTooDeep) none 1
  12 ≤ rules.settings.maxTriggerDepth.toNat ∧ 12 ≤ (12 : UInt32).toNat
    ∧ (rules.limited 12).resolve .dominoes attack = rules.resolve .dominoes attack
    ∧ leaves [⟨1⟩] (rules.resolve .dominoes attack)
    ∧ leaves [⟨1⟩, ⟨4⟩] ((rules.limited 1).resolve .dominoes attack)
    ∧ fallen.Coherent ∧ fallen.units.length = 4 ∧ sweep fallen = rules.sweep none 1 fallen
    ∧ ∃ b', sweep.Leads fallen b' ∧ b'.units.map BoardUnit.uid = [⟨1⟩]
  := by
  intro rules attack leaves fallen sweep
  have hrules : 12 ≤ rules.settings.maxTriggerDepth.toNat := by decide
  have hlimit : 12 ≤ (12 : UInt32).toNat := by decide
  obtain ⟨hlimited, hcounted⟩ := depth_limit_never_reached rules 12 hrules hlimit
  have hdominoes : Battle.dominoes.Coherent :=
    (Battle.corruption?_eq_none_iff.mp (by decide)).toCoherent
  have hfalls : BoardUnit.firstDomino.Endures { BoardUnit.firstDomino with vitality := 0 } := by
    constructor
    · exact ⟨rfl, rfl, rfl⟩
    · rfl
    · intro _ halive
      cases halive
  have hfallen : fallen.Coherent := hdominoes.replace rfl hfalls
  have hsweep : sweep fallen = rules.sweep none 1 fallen := ((hcounted fallen hfallen).2 _).2.1 none
  obtain ⟨b', hb', huids⟩ := exists_leads (c := sweep) (b := fallen)
    (p := fun b' => b'.units.map BoardUnit.uid = [⟨1⟩]) (by decide +kernel)
  exact ⟨hrules, hlimit, (hlimited .dominoes attack).1, by decide +kernel, by decide +kernel,
    hfallen, rfl, hsweep, b', hb', of_decide_eq_true huids⟩

end CardBattle
