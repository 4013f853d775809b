import CardBattle.Proofs.Action.Conservation
import CardBattle.Proofs.Action.Frame
import CardBattle.Proofs.BoardUnit.Base

/-!
# Statistics are accounted for

Where no card changes a statistic other than vitality for good, the base of that statistic
stays what the card of the unit says, from the deployment of the unit on: cascades, refreshes,
strikes and the end of a turn leave it alone, however the buffs of the unit come and go.  Hence
the value of the statistic is always that of the card and what the buffs of the unit add up to
(`stat_accounted`).
-/

namespace CardBattle

open Relation (ReflTransGen)
open Change

/-- No step of the card, at any nesting, changes the statistic for good. -/
def Card.LendsOnly (stat : Stat) (card : Card) : Prop :=
  ∀ ability ∈ card.abilities, ∀ block ∈ ability.rules,
    scriptChangesOnly (fun changed duration => changed = stat → duration ≠ .permanent)
      block.script

namespace Battle

/-- The battle at its beginning, with cards in the decks and in the hands. -/
def opening (seed : UInt64) (deck0 hand0 deck1 hand1 : List String) : Battle :=
  { start seed with
    side0.deck := deck0
    side0.hand := hand0
    side1.deck := deck1
    side1.hand := hand1 }

/-- Every unit has the value of its card as the base of the statistic. -/
def HasBases (catalog : Catalog) (stat : Stat) (b : Battle) : Prop :=
  ∀ u ∈ b.units, ∃ card, catalog.find? u.cardId = some card
    ∧ u.base stat = (card.stat stat).toInt

variable {catalog : Catalog} {stat : Stat} {b b' : Battle}

/-- There are no units in the opening of a battle. -/
theorem hasBases_opening (seed : UInt64) (deck0 hand0 deck1 hand1 : List String) :
  (opening seed deck0 hand0 deck1 hand1).HasBases catalog stat
  := by
  intro u hu
  cases hu

/-- Units whose ancestors had the bases have them as well. -/
theorem HasBases.descends (hb : b.HasBases catalog stat)
    (h : b.Descends (BoardUnit.SameBase stat) b') :
  b'.HasBases catalog stat
  := by
  intro v hv
  obtain ⟨u, hu, hsame⟩ := h v hv
  obtain ⟨card, hcard, hbase⟩ := hb u hu
  use card
  rw [hsame.cardId, hsame.base]
  exact ⟨hcard, hbase⟩

/-- The unit of a card that is deployed has its base. -/
theorem HasBases.deploys (hb : b.HasBases catalog stat) {player : UInt8} {handIndex : UInt64}
    {cell : Cell} {id : String} {card : Card} (hcard : catalog.find? id = some card)
    (h : b.Deploys player handIndex cell card b') :
  b'.HasBases catalog stat
  := by
  intro u hu
  rcases List.mem_append.mp (h.units_perm.subset hu) with hu | hu
  · apply hb u hu
  · obtain rfl := List.mem_singleton.mp hu
    use card
    rw [BoardUnit.base_ofCard]
    obtain rfl := Catalog.find?_id hcard
    exact ⟨hcard, rfl⟩

end Battle

namespace Ruleset

variable {rules : Ruleset} {stat : Stat} {b b' : Battle} {player : UInt8}
  (hstat : stat ≠ .vitality) (hrules : ∀ card ∈ rules.catalog.cards, card.LendsOnly stat)

include hrules in
theorem lendsOnly_answersWith (trigger : Trigger) (_ : True) :
  rules.AnswersWith (Step.ChangesOnly fun changed duration =>
    changed = stat → duration ≠ .permanent) trigger
  := by
  apply answersWith_of_cards
  intro card hcard ability hability block hmem _
  apply scriptChangesOnly_all _ (hrules card hcard ability hability block hmem)

include hstat hrules

/-! ### Cascades -/

theorem emit_keepsBases (event : Event) (b b' : Battle) (hb : b.Coherent)
    (h : (rules.emit event).Leads b b') :
  b.Descends (BoardUnit.SameBase stat) b'
  := emit_descends (BoardUnit.SameBase.isBond hstat).isTie (q := fun _ => True) (fun _ _ => trivial)
      (lendsOnly_answersWith hrules) event b b' trivial hb h

theorem emitAndRefresh_keepsBases (hb : b.Coherent) {event : Event} {first second : Trigger}
    (h : (rules.emitAndRefresh event first second).Leads b b') :
  b.Descends (BoardUnit.SameBase stat) b'
  := emitAndRefresh_descends (BoardUnit.SameBase.isBond hstat).isTie (q := fun _ => True)
      (fun _ _ => trivial) (lendsOnly_answersWith hrules)
      (fun _ _ => BoardUnit.expireBuffs_sameBase hstat)
      (BoardUnit.keepLack_sameBase hstat) hb trivial trivial trivial h

theorem runActivation_keepsBases (hb : b.Coherent) {u : BoardUnit} {card : Card} {uid : Uid}
    {slot : UInt8} {ability : Ability} {event : Event} (hcard : rules.cardOf? u = some card)
    (hability : card.activeAbility? slot = some ability)
    (h : (rules.runActivation uid ability event).Leads b b') :
  b.Descends (BoardUnit.SameBase stat) b'
  := by
  have hR := (BoardUnit.SameBase.isBond hstat).isTie
  have hkept : b'.Coherent ∧ b.Descends (BoardUnit.SameBase stat) b' := by
    apply runBlocks_keeps (P := fun c => c.Coherent ∧ b.Descends (BoardUnit.SameBase stat) c) _
      ⟨hb, .refl hR.refl b⟩ h
    rintro block hblock actor c c' ⟨hc, hdescends⟩ hrun
    use hc.moves (runScript_moves rules.emit_moves hrun)
    apply hdescends.trans hR.trans
    apply runScript_descends hR rules.emit_moves _ hc _ _ hrun
    · intro event c c' _
      apply emit_keepsBases hstat hrules event c c'
    · apply scriptChangesOnly_all
      apply hrules card (List.mem_of_find?_eq_some hcard) ability
        (List.mem_of_find?_eq_some hability) block (List.mem_of_mem_filter hblock)
  exact hkept.2

/-! ### Actions -/

theorem attackUnit_keepsBases (hb : b.Coherent) {attacker target : Uid}
    (h : (rules.attackUnit player attacker target).Leads b b') :
  b.Descends (BoardUnit.SameBase stat) b'
  := by
  have hengages : ∀ u v : BoardUnit, u.Engages v → u.SameBase stat v := by
    rintro u v (hhurt | hexerts)
    · exact BoardUnit.takeDamage_sameBase hstat hhurt
    · exact BoardUnit.SameBase.of_exerts hexerts
  exact attackUnit_descends (BoardUnit.SameBase.isBond hstat).isTie (q := fun _ => True)
    (fun _ _ => trivial) (lendsOnly_answersWith hrules) trivial trivial hengages hb h

theorem activate_keepsBases (hb : b.Coherent) {u : BoardUnit} {card : Card} {uid : Uid}
    {slot : UInt8} {target : Option Uid} {ability : Ability} {r : Report}
    (hcard : rules.cardOf? u = some card) (hability : card.activeAbility? slot = some ability)
    (h : rules.activate player uid slot target ability b = .ok (b', r)) :
  b.Descends (BoardUnit.SameBase stat) b'
  := by
  have hR := (BoardUnit.SameBase.isBond hstat).isTie
  obtain ⟨m, m', hpaid, hrun, huses⟩ := activate_ok h
  have hendures : ∀ u v : BoardUnit, u.Spares (fun _ => False) v → u.Endures v :=
    fun u v hspares => hspares.alters.endures
  have hm := hb.touches hendures hpaid
  have hm' := hm.moves (rules.runActivation_moves hrun)
  obtain ⟨side, hside, hexerts⟩ := huses.exerts
  have hmarked := hm'.shift (s := side.markUsed ⟨uid, slot⟩) hside rfl
  have hnoted : m'.Descends (BoardUnit.SameBase stat)
      (m'.setSide player (side.markUsed ⟨uid, slot⟩)) :=
    Battle.descends_of_units hR.refl (Battle.units_shift hside rfl)
  have hpaid : b.Descends (BoardUnit.SameBase stat) m :=
    hb.touches_descends hR hendures (fun u v hspares => hspares.alters.sameBase hstat) hpaid
  apply hpaid.trans hR.trans
  apply (runActivation_keepsBases hstat hrules hm hcard hability hrun).trans hR.trans
  apply hnoted.trans hR.trans
  apply hmarked.touches_descends hR (fun u v => BoardUnit.Exerts.endures)
    (fun u v => BoardUnit.SameBase.of_exerts) hexerts

theorem endTurn_keepsBases (hb : b.Coherent) (h : rules.endTurn.Leads b b') :
  b.Descends (BoardUnit.SameBase stat) b'
  := by
  have hR := (BoardUnit.SameBase.isBond hstat).isTie
  obtain ⟨m, hchange, hrest⟩ := endTurn_descends hR (q := fun _ => True) (fun _ _ => trivial)
    (lendsOnly_answersWith hrules) (fun _ _ => BoardUnit.expireBuffs_sameBase hstat)
    (BoardUnit.keepLack_sameBase hstat) trivial trivial trivial hb h
  have hended : Battle.Descends (BoardUnit.SameBase stat)
      { b with side0.used := ∅, side1.used := ∅ } m :=
    Battle.descends_changeAll (fun u v => BoardUnit.endCycle_sameBase hstat) hchange
  exact Battle.Descends.trans hR.trans hended hrest

/-- An accepted action leaves every unit with the base of its card. -/
theorem resolve_hasBases {action : Action} {resolution : Resolution}
    (h : rules.resolve b action = .ok resolution) (hbases : b.HasBases rules.catalog stat) :
  resolution.battle.HasBases rules.catalog stat
  := by
  have hR := (BoardUnit.SameBase.isBond hstat).isTie
  obtain ⟨permit, report, hpermit, hcarry⟩ := resolve_ok h
  obtain ⟨hintegrity, hchecked⟩ := permit_ok hpermit
  have hb := (Battle.corruption?_eq_none_iff.mp hintegrity).toCoherent
  cases permit with
  | playUnit player handIndex cell card =>
    obtain ⟨side, id, -, -, hcard, -⟩ := hchecked
    obtain ⟨m, hdeploys, hrest⟩ := playUnit_ok hcarry
    apply (hbases.deploys hcard hdeploys).descends
    apply emitAndRefresh_keepsBases hstat hrules (hb.deploys hdeploys) hrest
  | move player uid cell =>
    obtain ⟨m, hrelocates, hrest⟩ := moveUnit_ok hcarry
    obtain ⟨m', hrearranges, hcoherent, hlogs⟩ := hb.relocates hrelocates
    apply hbases.descends
    apply (hrearranges.descends hR.elsewhere).trans hR.trans
    apply (Battle.descends_of_units hR.refl hlogs.units_eq).trans hR.trans
    apply emitAndRefresh_keepsBases hstat hrules (hcoherent.logs hlogs) hrest
  | attack player attacker target =>
    apply hbases.descends
    apply attackUnit_keepsBases hstat hrules hb ⟨report, lift_fault_eq_ok.mp hcarry⟩
  | activate player uid slot target ability =>
    obtain ⟨side, u, card, -, -, -, hcard, hability⟩ := hchecked
    apply hbases.descends
    apply activate_keepsBases hstat hrules hb hcard hability hcarry
  | endTurn =>
    apply hbases.descends
    apply endTurn_keepsBases hstat hrules hb ⟨report, lift_fault_eq_ok.mp hcarry⟩

end Ruleset

/-- In every battle that comes by accepted actions from an opening, and if no card changes a
statistic other than vitality for good, the value of that statistic of a unit is that of its
card and all that its buffs add to it. -/
theorem stat_accounted {rules : Ruleset} {stat : Stat} (hstat : stat ≠ .vitality)
    (hrules : ∀ card ∈ rules.catalog.cards, card.LendsOnly stat) {seed : UInt64}
    {deck0 hand0 deck1 hand1 : List String} {b : Battle}
    (h : ReflTransGen rules.Accepts (.opening seed deck0 hand0 deck1 hand1) b) :
  ∀ u ∈ b.units, ∃ card, rules.catalog.find? u.cardId = some card
    ∧ (u.stat stat).toInt = (card.stat stat).toInt + Buff.total stat u.buffs
  := by
  have hbases : b.HasBases rules.catalog stat := by
    induction h with
    | refl => apply Battle.hasBases_opening
    | tail _ hstep ih =>
      obtain ⟨action, resolution, haccept, rfl⟩ := hstep
      apply Ruleset.resolve_hasBases hstat hrules haccept ih
  intro u hu
  obtain ⟨card, hcard, hbase⟩ := hbases u hu
  rw [BoardUnit.base] at hbase
  exact ⟨card, hcard, by omega⟩

/-- A unit card that is stronger in the turn of its deployment, and has an aura for itself. -/
def Card.recruit : Card :=
  { id := "recruit"
    name := "Recruit"
    stats := { vitality := 3, impact := 2 }
    abilities := [{
      kind := .passive
      rules := [
        { trigger := .onDeploy, script := [.modifyStat .self .impact 5 .endOfCycle] },
        { trigger := .aura, script := [.modifyStat .self .impact 1 .aura] }] }] }

/-- When the recruit has been deployed it has both its buffs, and when the turn has ended it has
kept the aura. -/
theorem stat_accounted_recruit :
  let rules : Ruleset := { catalog := ⟨[.recruit], by decide⟩ }
  ∃ m b, rules.Accepts (.opening 1 [] ["recruit"] [] []) m ∧ rules.Accepts m b
    ∧ (∃ u ∈ m.units, Buff.total .impact u.buffs = 6
      ∧ ∃ card, rules.catalog.find? u.cardId = some card
        ∧ (u.stat .impact).toInt = (card.stat .impact).toInt + Buff.total .impact u.buffs)
    ∧ ∃ u ∈ b.units, Buff.total .impact u.buffs = 1
      ∧ ∃ card, rules.catalog.find? u.cardId = some card
        ∧ (u.stat .impact).toInt = (card.stat .impact).toInt + Buff.total .impact u.buffs
  := by
  intro rules
  have hrules : ∀ card ∈ rules.catalog.cards, card.LendsOnly .impact := by
    intro card hcard ability hability block hblock
    obtain rfl := List.mem_singleton.mp hcard
    obtain rfl := List.mem_singleton.mp hability
    simp only [List.mem_cons, List.not_mem_nil, or_false] at hblock
    obtain rfl | rfl := hblock
    · exact ⟨fun _ => by decide, trivial⟩
    · exact ⟨fun _ => by decide, trivial⟩
  have hresult : (rules.resolve (.opening 1 [] ["recruit"] [] [])
      (.playUnit 0 0 ⟨.front, 0⟩)).toOption.any fun deployed =>
        (deployed.battle.units.any fun u => Buff.total .impact u.buffs = 6)
        && (rules.resolve deployed.battle (.endTurn 0)).toOption.any fun ended =>
          ended.battle.units.any fun u => Buff.total .impact u.buffs = 1 := by
    decide +kernel
  rcases hdeploy : rules.resolve (.opening 1 [] ["recruit"] [] []) (.playUnit 0 0 ⟨.front, 0⟩)
    with stop | deployed
  · rw [hdeploy] at hresult
    cases hresult
  · rw [hdeploy] at hresult
    simp only [Except.toOption, Option.any_some, Bool.and_eq_true, List.any_eq_true,
      decide_eq_true_eq] at hresult
    obtain ⟨⟨u, hu, hsix⟩, hend⟩ := hresult
    rcases hended : rules.resolve deployed.battle (.endTurn 0) with stop | ended
    · rw [hended] at hend
      cases hend
    · rw [hended] at hend
      simp only [Option.any_some, List.any_eq_true, decide_eq_true_eq] at hend
      obtain ⟨v, hv, hone⟩ := hend
      have hfirst : rules.Accepts (.opening 1 [] ["recruit"] [] []) deployed.battle :=
        ⟨_, deployed, hdeploy, rfl⟩
      have hsecond : rules.Accepts deployed.battle ended.battle := ⟨_, ended, hended, rfl⟩
      use deployed.battle, ended.battle, hfirst, hsecond
      constructor
      · use u, hu, hsix
        exact stat_accounted (by decide) hrules (.single hfirst) u hu
      · use v, hv, hone
        exact stat_accounted (by decide) hrules (.tail (.single hfirst) hsecond) v hv

end CardBattle
