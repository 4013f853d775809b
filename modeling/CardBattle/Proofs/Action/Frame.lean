import CardBattle.Proofs.Action.Soundness
import CardBattle.Proofs.Cascade.Descent

/-!
# What actions keep account of

Whatever an action leaves to events, refreshes and sweeps keeps account of the turn, so that
only the steps of its own can change that: the deployment of a unit, a strike, the use of an
ability, the end of a turn.  It also respects every tie that the rule blocks respect, so that
of the end of a turn only the change of all units remains to be looked at.
-/

namespace CardBattle

open Relation (ReflTransGen)
open Change

/-- Whether the action activates an ability. -/
def Action.isActivation : Action → Bool
  | .activate .. => true
  | _ => false

namespace Battle

variable {b b' : Battle} {player : UInt8}

/-- Touches one after another keep account of the turn when the alterations of units do. -/
theorem Coherent.touches_keep {A : BoardUnit → BoardUnit → Prop} (hb : b.Coherent)
    (hendures : ∀ u v, A u v → u.Endures v) (hkeeps : ∀ u v, A u v → u.Keeps v)
    (h : Touches A b b') :
  b.Keeps b'
  := by
  induction h with
  | refl => apply Keeps.refl
  | tail htouches htouch ih =>
    apply ih.trans
    apply (hb.touches hendures htouches).touch_keeps hkeeps htouch

/-- A unit that is relocated keeps account of its turn. -/
theorem Coherent.relocates_keeps (hb : b.Coherent) {cell : Cell}
    (h : b.Relocates player cell b') :
  b.Keeps b'
  := by
  obtain ⟨m, hrearranges, -, hlogs⟩ := hb.relocates h
  apply hrearranges.keeps.trans hlogs.keeps

end Battle

namespace Ruleset

variable {rules : Ruleset} {b b' : Battle} {player : UInt8}

theorem emitAndRefresh_keeps (hb : b.Coherent) {event : Event} {first second : Trigger}
    (h : (rules.emitAndRefresh event first second).Leads b b') :
  b.Keeps b'
  := by
  obtain ⟨m, hemit, hrefresh⟩ := leads_andThen.mp h
  have hmoves := rules.emit_moves _ _ _ hemit
  apply (hb.moves_keep hmoves).trans
  apply refresh_keeps (hb.moves hmoves) hrefresh

/-- Once a unit is deployed, account is kept of the turn. -/
theorem playUnit_keeps (hb : b.Coherent) {handIndex : UInt64} {cell : Cell} {card : Card}
    {r : Report} (h : rules.playUnit player handIndex cell card b = .ok (b', r)) :
  ∃ m, b.Deploys player handIndex cell card m ∧ m.Keeps b'
  := by
  obtain ⟨m, hdeploys, hrest⟩ := playUnit_ok h
  use m, hdeploys
  apply emitAndRefresh_keeps (hb.deploys hdeploys) hrest

/-- A move keeps account of the turn. -/
theorem moveUnit_keeps (hb : b.Coherent) {uid : Uid} {cell : Cell} {r : Report}
    (h : rules.moveUnit player uid cell b = .ok (b', r)) :
  b.Keeps b'
  := by
  obtain ⟨m, hrelocates, hrest⟩ := moveUnit_ok h
  obtain ⟨m', -, hcoherent, hlogs⟩ := hb.relocates hrelocates
  apply (hb.relocates_keeps hrelocates).trans
  apply emitAndRefresh_keeps (hcoherent.logs hlogs) hrest

/-- But for the strike and the first attacker, an attack keeps account of the turn. -/
theorem attackUnit_keeps (hb : b.Coherent) {attacker target : Uid}
    (h : (rules.attackUnit player attacker target).Leads b b') :
  ∃ m, (rules.emit (.ofAttack .onAttackDeclare player attacker target)).Leads
      { b with firstAttacker := b.firstAttacker <|> some attacker } m
    ∧ m.Coherent ∧ Battle.Keeps { b with firstAttacker := b.firstAttacker <|> some attacker } m
    ∧ (((m.find? attacker = none ∨ m.find? target = none) ∧ m.Keeps b')
      ∨ ∃ att tgt m₁ amount, m.find? attacker = some att ∧ m.find? tgt.uid = some tgt
        ∧ strike m att tgt = .ok (m₁, amount) ∧ m₁.Keeps b')
  := by
  obtain ⟨m, hdeclare, hrest⟩ := attackUnit_leads h
  have hb' := hb.noteAttacker attacker
  have hmoves := rules.emit_moves _ _ _ hdeclare
  have hm := hb'.moves hmoves
  refine ⟨m, hdeclare, hm, hb'.moves_keep hmoves, ?_⟩
  obtain ⟨hgone, hlogs⟩ | ⟨att, tgt, m₁, amount, line, m₂, hatt, -, htgt, hstrike, hhit, hsweep⟩ :=
    hrest
  · left
    exact ⟨hgone, hlogs.keeps⟩
  · right
    have hlogs := m₁.record_logs line
    have hm₁ := (hm.strike htgt hstrike).logs hlogs
    have hmoves' := (rules.emit_moves _ _ _ hhit).trans (rules.sweep_moves hsweep)
    exact ⟨att, tgt, m₁, amount, hatt, htgt, hstrike, hlogs.keeps.trans (hm₁.moves_keep hmoves')⟩

/-- Until its use is noted, an ability keeps account of the turn. -/
theorem activate_keeps (hb : b.Coherent) {uid : Uid} {slot : UInt8} {target : Option Uid}
    {ability : Ability} {r : Report}
    (h : rules.activate player uid slot target ability b = .ok (b', r)) :
  ∃ m, b.Keeps m ∧ m.Coherent ∧ m.Uses player uid slot ability b'
  := by
  obtain ⟨m, m', hpaid, hrun, huses⟩ := activate_ok h
  have hendures : ∀ u v : BoardUnit, u.Spares (fun _ => False) v → u.Endures v :=
    fun u v hspares => hspares.alters.endures
  have hm := hb.touches hendures hpaid
  have hmoves := rules.runActivation_moves hrun
  refine ⟨m', ?_, hm.moves hmoves, huses⟩
  apply Battle.Keeps.trans _ (hm.moves_keep hmoves)
  apply hb.touches_keep hendures _ hpaid
  intro u v hspares
  apply hspares.alters.keeps

/-! ### Descent -/

section

variable {R : BoardUnit → BoardUnit → Prop} {p : Step → Prop} (hR : BoardUnit.IsTie p R)
  {q : Trigger → Prop} (heliminations : ∀ trigger ∈ Trigger.eliminations, q trigger)
  (hrules : ∀ trigger, q trigger → rules.AnswersWith p trigger)

include hR heliminations hrules

/-- An attack respects a tie that strikes respect as well. -/
theorem attackUnit_descends (hdeclare : q .onAttackDeclare) (hhit : q .onAttackHit)
    (hengages : ∀ u v : BoardUnit, u.Engages v → R u v) (hb : b.Coherent) {attacker target : Uid}
    (h : (rules.attackUnit player attacker target).Leads b b') :
  b.Descends R b'
  := by
  obtain ⟨m, hdeclared, hrest⟩ := attackUnit_leads h
  have hb' := hb.noteAttacker attacker
  have hm := hb'.moves (rules.emit_moves _ _ _ hdeclared)
  apply Battle.Descends.trans hR.trans
    (emit_descends hR heliminations hrules _ _ _ hdeclare hb' hdeclared)
  obtain ⟨-, hlogs⟩ | ⟨att, tgt, m₁, amount, line, m₂, -, -, htgt, hstrike, hstruck, hsweep⟩ :=
    hrest
  · apply Battle.descends_of_units hR.refl hlogs.units_eq
  · have hlogs := m₁.record_logs line
    have hm₁ := (hm.strike htgt hstrike).logs hlogs
    have hm₂ := hm₁.moves (rules.emit_moves _ _ _ hstruck)
    apply Battle.Descends.trans hR.trans (hm.touches_descends hR
      (fun _ _ => BoardUnit.Engages.endures) hengages (strike_touches htgt hstrike))
    apply (Battle.descends_of_units hR.refl hlogs.units_eq).trans hR.trans
    apply (emit_descends hR heliminations hrules _ _ _ hhit hm₁ hstruck).trans hR.trans
    apply sweep_descends hR heliminations hrules hm₂ hsweep

variable (hexpire : ∀ u v : BoardUnit, u.expireBuffs .aura = .ok v → R u v)
  (hkeep : ∀ (lacks : Lacks) (u : BoardUnit), R u (u.keepLack lacks))

include hexpire hkeep

/-- An event and the refresh after it respect a tie. -/
theorem emitAndRefresh_descends (hb : b.Coherent) {event : Event} {first second : Trigger}
    (hevent : q event.trigger) (hfirst : q first) (hsecond : q second)
    (h : (rules.emitAndRefresh event first second).Leads b b') :
  b.Descends R b'
  := by
  obtain ⟨m, hemit, hrefresh⟩ := leads_andThen.mp h
  have hm := hb.moves (rules.emit_moves _ _ _ hemit)
  apply (emit_descends hR heliminations hrules _ _ _ hevent hb hemit).trans hR.trans
  exact refresh_descends hR heliminations hrules hexpire hkeep hm hfirst hsecond hrefresh

/-- Once all units are changed for the end of a turn, the rest of it respects a tie. -/
theorem endTurn_descends (hstart : q .turnStartSelf) (hruleMod : q .ruleMod) (haura : q .aura)
    (hb : b.Coherent) (h : rules.endTurn.Leads b b') :
  ∃ m, ({ b with side0.used := ∅, side1.used := ∅ }).changeAll BoardUnit.endCycle = .ok m
    ∧ m.Descends R b'
  := by
  obtain ⟨m₁, m₂, m₃, ⟨hchange, hm₁⟩, ⟨hsweep, -⟩, ⟨hpasses, hm₃⟩, hrest⟩ := endTurn_coherent hb h
  use m₁, hchange
  apply (sweep_descends hR heliminations hrules hm₁ hsweep).trans hR.trans
  apply (Battle.descends_of_units hR.refl hpasses.units).trans hR.trans
  exact emitAndRefresh_descends hR heliminations hrules hexpire hkeep hm₃ hstart hruleMod haura
    hrest

end

/-- An action that activates no ability respects a tie between the units that were there before
and what they have become, if the rule blocks do that are run on no activation, and whatever is
done to a unit besides by strikes and at the end of a turn. -/
theorem resolve_descends {R : BoardUnit → BoardUnit → Prop} {p : Step → Prop}
    (hR : BoardUnit.IsTie p R) (huid : ∀ u v, R u v → v.uid = u.uid)
    (hrules : ∀ trigger, trigger ≠ .activate → rules.AnswersWith p trigger)
    (hexpire : ∀ u v : BoardUnit, u.expireBuffs .aura = .ok v → R u v)
    (hkeep : ∀ (lacks : Lacks) (u : BoardUnit), R u (u.keepLack lacks))
    (hengages : ∀ u v : BoardUnit, u.Engages v → R u v)
    (hcycle : ∀ u v : BoardUnit, u.endCycle = .ok v → R u v)
    {action : Action} {resolution : Resolution} (haction : ¬action.isActivation)
    (h : rules.resolve b action = .ok resolution) :
  ∀ v ∈ resolution.battle.units, b.uids.hasIssued v.uid → ∃ u ∈ b.units, R u v
  := by
  have heliminations : ∀ trigger ∈ Trigger.eliminations, trigger ≠ .activate := by decide
  obtain ⟨permit, report, hpermit, hcarry⟩ := resolve_ok h
  have hgrants := permit_grants hpermit
  have hb := (Battle.corruption?_eq_none_iff.mp (permit_ok hpermit).1).toCoherent
  intro v hv hissued
  cases permit with
  | playUnit player handIndex cell card =>
    obtain ⟨m, hdeploys, hrest⟩ := playUnit_ok hcarry
    obtain ⟨u, hu, huv⟩ := emitAndRefresh_descends hR heliminations hrules hexpire hkeep
      (hb.deploys hdeploys) (show Trigger.onDeploy ≠ .activate by decide) (by decide) (by decide)
      hrest v hv
    rcases List.mem_append.mp (hdeploys.units_perm.subset hu) with hu | hu
    · exact ⟨u, hu, huv⟩
    · obtain rfl := List.mem_singleton.mp hu
      exact absurd (huid _ _ huv) (UidCounter.ne_of_hasIssued hissued)
  | move player uid cell =>
    obtain ⟨m, hrelocates, hrest⟩ := moveUnit_ok hcarry
    obtain ⟨m', hrearranges, hcoherent, hlogs⟩ := hb.relocates hrelocates
    apply ((hrearranges.descends hR.elsewhere).trans hR.trans
      (Battle.descends_of_units hR.refl hlogs.units_eq)).trans hR.trans _ v hv
    apply emitAndRefresh_descends hR heliminations hrules hexpire hkeep (hcoherent.logs hlogs)
      (show Trigger.onUnitMove ≠ .activate by decide) (by decide) (by decide) hrest
  | attack player attacker target =>
    apply attackUnit_descends hR heliminations hrules (by decide) (by decide) hengages hb
      ⟨report, lift_fault_eq_ok.mp hcarry⟩ v hv
  | activate player uid slot target ability =>
    obtain rfl := hgrants
    exact absurd rfl haction
  | endTurn =>
    obtain ⟨m, hchange, hrest⟩ := endTurn_descends hR heliminations hrules hexpire hkeep
      (by decide) (by decide) (by decide) hb ⟨report, lift_fault_eq_ok.mp hcarry⟩
    have hended : Battle.Descends R { b with side0.used := ∅, side1.used := ∅ } m :=
      Battle.descends_changeAll hcycle hchange
    exact Battle.Descends.trans hR.trans hended hrest v hv

end Ruleset

end CardBattle
