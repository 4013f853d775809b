import CardBattle.Proofs.Action.Soundness
import CardBattle.Proofs.Cascade.Donation

/-!
# Auras after actions

When a unit is played or moved, or a turn ends, the auras are refreshed last of all, so that
nothing can change the boards after it (`Ruleset.ComesToRefresh`).  Every unit is left with the
auras that the units on the boards grant to it (`auras_fresh`), but the refresh itself may
eliminate units after they have granted something: this is not taken back before the next
one (`auras_fresh_fails`).
-/

namespace CardBattle

open Change

/-- Whether the action ends with a refresh of the auras. -/
def Action.refreshes : Action → Bool
  | .playUnit _ _ _ => true
  | .move _ _ _ => true
  | .attack _ _ _ => false
  | .activate _ _ _ _ => false
  | .endTurn _ => true

/-- What an action does before it refreshes the auras, and for which player and in which order
these are refreshed then. -/
inductive Ruleset.ComesToRefresh (rules : Ruleset) (b : Battle) :
    Action → Battle → UInt8 → Trigger → Trigger → Prop
  | playUnit {player : UInt8} {handIndex : UInt64} {cell : Cell} {card : Card} {m m' : Battle}
      (hcard : rules.checkPlay b player handIndex cell = .ok card)
      (hdeploys : b.Deploys player handIndex cell card m)
      (hemit : (rules.emit
        { trigger := .onDeploy, player, source := some ⟨b.uids.next⟩ }).Leads m m') :
      ComesToRefresh rules b (.playUnit player handIndex cell) m' player .ruleMod .aura
  | move {player : UInt8} {uid : Uid} {cell : Cell} {side : Side} {u : BoardUnit}
      {board : Board} {line : String} {m m' : Battle} (hside : b.side? player = some side)
      (htake : side.board.take? uid = some (u, board))
      (hsettle : Ruleset.settle b player { side with board } { u with cell } = .ok m)
      (hemit : (rules.emit
        { trigger := .onUnitMove, player, source := some uid, mover := some uid }).Leads
        (m.record line) m') :
      ComesToRefresh rules b (.move player uid cell) m' player .aura .ruleMod
  | endTurn {player : UInt8} {m m' m'' : Battle} (hend : rules.endCycle.Leads b m)
      (hnext : Ruleset.nextTurn m = .ok m')
      (hemit : (rules.emit
        { trigger := .turnStartSelf, player := m'.activePlayer }).Leads m' m'') :
      ComesToRefresh rules b (.endTurn player) m'' m'.activePlayer .ruleMod .aura

namespace Ruleset

variable {rules : Ruleset} {b m b' : Battle} {action : Action} {player : UInt8}
  {first second : Trigger}

/-- The end of a turn for the units leaves a coherent battle sound. -/
theorem endCycle_sound (hb : b.Coherent) (h : rules.endCycle.Leads b b') :
  b'.Sound
  := by
  obtain ⟨r, h⟩ := h
  obtain ⟨m, hchange, hsweep⟩ := bind_eq_ok.mp h
  have hb' : ({ b with side0.used := ∅, side1.used := ∅ } : Battle).Coherent :=
    hb.congr hb.active rfl rfl rfl
  apply sweep_sound _ ⟨r, hsweep⟩
  apply hb'.changeAll (fun _ _ => BoardUnit.endCycle_endures) hchange

namespace ComesToRefresh

/-- The battle is coherent when an action comes to its refresh. -/
theorem coherent (h : rules.ComesToRefresh b action m player first second) (hb : b.Coherent) :
  m.Coherent
  := by
  cases h with
  | playUnit _ hdeploys hemit =>
    apply (hb.deploys hdeploys).moves (rules.emit_moves _ _ _ hemit)
  | move hside htake hsettle hemit =>
    obtain ⟨_, -, hcoherent, hlogs⟩ := hb.relocates (relocates_of_settle hside htake hsettle _)
    apply (hcoherent.logs hlogs).moves (rules.emit_moves _ _ _ hemit)
  | endTurn hend hnext hemit =>
    have hm := (endCycle_sound hb hend).toCoherent
    apply (hm.passesTurn (nextTurn_passesTurn hnext)).moves (rules.emit_moves _ _ _ hemit)

/-- The triggers of a refresh are those of continuous effects. -/
theorem continuous (h : rules.ComesToRefresh b action m player first second) :
  first.IsContinuous ∧ second.IsContinuous
  := by
  cases h with
  | playUnit => exact ⟨.inl rfl, .inr rfl⟩
  | move => exact ⟨.inr rfl, .inl rfl⟩
  | endTurn => exact ⟨.inl rfl, .inr rfl⟩

end ComesToRefresh

/-- An action that is accepted ends with its refresh. -/
theorem resolve_refreshes {resolution : Resolution} (haction : action.refreshes)
    (h : rules.resolve b action = .ok resolution) :
  ∃ m player first second, rules.ComesToRefresh b action m player first second
    ∧ (rules.refresh player first second).Leads m resolution.battle
  := by
  obtain ⟨permit, r, hpermit, hcarry⟩ := resolve_ok h
  obtain ⟨_, -, hpermit⟩ := bind_eq_ok.mp hpermit
  cases action with
  | playUnit player handIndex cell =>
    obtain ⟨card, hcard, hpermit⟩ := bind_eq_ok.mp hpermit
    obtain rfl := pure_eq_ok.mp hpermit
    obtain ⟨m, hdeploys, hrest⟩ := playUnit_ok hcarry
    obtain ⟨m', hemit, hrefresh⟩ := leads_andThen.mp hrest
    exact ⟨m', player, _, _, .playUnit hcard hdeploys hemit, hrefresh⟩
  | move player uid cell =>
    obtain ⟨_, -, hpermit⟩ := bind_eq_ok.mp hpermit
    obtain rfl := pure_eq_ok.mp hpermit
    obtain ⟨side, hside, hcarry⟩ := bind_eq_ok.mp hcarry
    have hside := Battle.sideOf_eq_ok.mp (lift_rejection_eq_ok.mp hside)
    split at hcarry
    · cases hcarry
    · next u board htake =>
      obtain ⟨m, hsettle, hrest⟩ := bind_eq_ok.mp hcarry
      obtain ⟨m', hemit, hrefresh⟩ := leads_andThen.mp ⟨r, lift_fault_eq_ok.mp hrest⟩
      exact ⟨m', player, _, _,
        .move hside htake (lift_rejection_eq_ok.mp hsettle) hemit, hrefresh⟩
  | attack player attacker target => cases haction
  | activate player uid slot target => cases haction
  | endTurn player =>
    obtain rfl := pure_eq_ok.mp hpermit
    obtain ⟨⟨m, s⟩, hend, hcarry⟩ := bind_eq_ok.mp (lift_fault_eq_ok.mp hcarry)
    obtain ⟨m', hnext, hcarry⟩ := bind_eq_ok.mp hcarry
    obtain ⟨⟨m₃, t⟩, hrest, hcarry⟩ := bind_eq_ok.mp hcarry
    obtain ⟨rfl, -⟩ := Prod.mk.inj (pure_eq_ok.mp hcarry)
    obtain ⟨m'', hemit, hrefresh⟩ := leads_andThen.mp ⟨t, hrest⟩
    exact ⟨m'', m'.activePlayer, _, _, .endTurn ⟨s, hend⟩ hnext hemit, hrefresh⟩

end Ruleset

/-- When a unit has been played or moved, or a turn has ended, the auras of each unit are
those that the units on the boards grant to it, and perhaps some that were granted to it by
units eliminated in the refresh which is the last part of the action. -/
theorem auras_fresh {rules : Ruleset} (hrules : rules.ConfinesAuras) {b : Battle}
    {action : Action} (haction : action.refreshes) {resolution : Resolution}
    (h : rules.resolve b action = .ok resolution) :
  ∃ m player first second, rules.ComesToRefresh b action m player first second
    ∧ (rules.refresh player first second).Leads m resolution.battle
    ∧ rules.FreshAuras player first second m resolution.battle
  := by
  obtain ⟨permit, -, hpermit, -⟩ := Ruleset.resolve_ok h
  have hb := (Battle.corruption?_eq_none_iff.mp (Ruleset.permit_ok hpermit).1).toCoherent
  obtain ⟨m, player, first, second, hcomes, hrefresh⟩ := Ruleset.resolve_refreshes haction h
  obtain ⟨hfirst, hsecond⟩ := hcomes.continuous
  exact ⟨m, player, first, second, hcomes, hrefresh,
    refresh_auras hrules (hcomes.coherent hb) hfirst hsecond hrefresh⟩

/-- A unit card with two continuous effects: an aura for the unit of uid 2, and another that takes
its own life. -/
def Card.herald : Card :=
  { id := "herald"
    name := "Herald"
    stats := { vitality := 3 }
    abilities := [{
      kind := .passive
      rules := [
        { trigger := .aura, script := [.modifyStat (.uid 2) .impact 1 .aura] },
        { trigger := .ruleMod, script := [.modifyStat .self .vitality (-99) .aura] }] }] }

/-- A battle in which a herald has come to a unit of its player. -/
def Battle.heraldry : Battle :=
  { Battle.start 1 with
    side0.board := ⟨[some (.ofCard ⟨1⟩ 0 ⟨.front, 0⟩ .herald),
      some (.ofCard ⟨2⟩ 0 ⟨.front, 1⟩
        { id := "squire", name := "Squire", stats := { vitality := 3 } }),
      none, none, none, none], rfl⟩
    uids := ⟨3⟩ }

/-- The rules of a battle in which only the card of the herald has an effect. -/
def Ruleset.heraldry : Ruleset :=
  { catalog := ⟨[.herald], by decide⟩ }

theorem Ruleset.heraldry_confinesAuras :
  heraldry.ConfinesAuras
  := by
  have hall : ∀ card ∈ heraldry.catalog.cards, ∀ ability ∈ card.abilities,
      ∀ block ∈ ability.rules, block.trigger.IsContinuous := by decide
  refine ⟨by decide, by decide, ?_⟩
  intro card hcard ability hability block hblock hother
  exact absurd (hall card hcard ability hability block hblock) hother

/-- The unit that moves is left with the aura of the herald, which has not survived the
refresh. -/
theorem auras_fresh_fails :
  Ruleset.heraldry.ConfinesAuras ∧ Battle.heraldry.corruption? = none
    ∧ ∃ resolution v,
      Ruleset.heraldry.resolve .heraldry (.move 0 ⟨2⟩ ⟨.back, 1⟩) = .ok resolution
      ∧ resolution.battle.units = [v] ∧ v.expiring .aura = [⟨.impact, 1, .aura⟩]
      ∧ Ruleset.heraldry.continuousGrants resolution.battle 0 .aura .ruleMod = []
  := by
  refine ⟨Ruleset.heraldry_confinesAuras, by decide, ?_⟩
  have hmoved : (Ruleset.heraldry.resolve .heraldry (.move 0 ⟨2⟩ ⟨.back, 1⟩)).toOption.any
      fun resolution => resolution.battle.units.length = 1
        ∧ (resolution.battle.units.all fun v => v.expiring .aura = [⟨.impact, 1, .aura⟩])
        ∧ Ruleset.heraldry.continuousGrants resolution.battle 0 .aura .ruleMod = [] := by
    decide +kernel
  cases hresolve : Ruleset.heraldry.resolve .heraldry (.move 0 ⟨2⟩ ⟨.back, 1⟩) with
  | error stop =>
    rw [hresolve] at hmoved
    cases hmoved
  | ok resolution =>
    rw [hresolve] at hmoved
    obtain ⟨hlength, hauras, hgrants⟩ := of_decide_eq_true hmoved
    obtain ⟨v, hv⟩ := List.length_eq_one_iff.mp hlength
    rw [hv, List.all_cons, Bool.and_eq_true] at hauras
    exact ⟨resolution, v, rfl, hv, of_decide_eq_true hauras.1, hgrants⟩

/-- What the unit that moves is left with is what the herald has granted to it before it was
eliminated. -/
theorem auras_fresh_heraldry :
  ∃ resolution, Ruleset.heraldry.resolve .heraldry (.move 0 ⟨2⟩ ⟨.back, 1⟩) = .ok resolution
    ∧ ∃ m player first second,
      Ruleset.heraldry.ComesToRefresh .heraldry (.move 0 ⟨2⟩ ⟨.back, 1⟩) m player first second
      ∧ (Ruleset.heraldry.refresh player first second).Leads m resolution.battle
      ∧ Ruleset.heraldry.FreshAuras player first second m resolution.battle
  := by
  have haccepted : (Ruleset.heraldry.resolve .heraldry (.move 0 ⟨2⟩ ⟨.back, 1⟩)).isOk := by
    decide +kernel
  cases hresolve : Ruleset.heraldry.resolve .heraldry (.move 0 ⟨2⟩ ⟨.back, 1⟩) with
  | error stop =>
    rw [hresolve] at haccepted
    cases haccepted
  | ok resolution =>
    use resolution, rfl
    exact auras_fresh Ruleset.heraldry_confinesAuras rfl hresolve

end CardBattle
