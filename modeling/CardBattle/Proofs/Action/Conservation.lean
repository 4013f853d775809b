import CardBattle.Proofs.Action.Soundness
import CardBattle.Proofs.Cascade.Conservation
import Mathlib.Data.List.Perm.Basic

/-!
# Actions keep the cards of both players

An accepted action takes no card from a player and gives none: a card that is played goes
from the hand to the board, one that is paid for an ability to the discard pile, and the rest
is done by cascades.  Over any number of accepted actions, then, both players keep the cards
that they had at the beginning.
-/

namespace CardBattle

open Relation (ReflTransGen)
open Change

/-- The card that is found by an id has it. -/
theorem Catalog.find?_id {catalog : Catalog} {id : String} {card : Card}
    (h : catalog.find? id = some card) :
  card.id = id
  := by simpa using List.find?_some h

namespace Battle

variable {b b' : Battle} {player : UInt8} {cell : Cell}

/-- The card of a unit that is deployed comes from the hand. -/
theorem Deploys.conserves {handIndex : UInt64} {card : Card}
    (h : b.Deploys player handIndex cell card b')
    (hcard : ∃ side, b.side? player = some side ∧ side.hand[handIndex.toNat]? = some card.id) :
  b.Conserves b'
  := by
  obtain ⟨next, side, i, board, line, -, hside, hplace, -, hturns, rfl⟩ := h
  obtain ⟨_, hside', hid⟩ := hcard
  obtain rfl := Option.some.inj (hside.symm.trans hside')
  have hissued : b.Conserves { b with uids := ⟨next⟩ } := by
    apply conserves_of_sides
    · apply List.Perm.refl
    · apply List.Perm.refl
  have hcards : ({ side with hand := side.hand.eraseIdx handIndex.toNat, board } : Side).cards.Perm
      side.cards := by
    have hunits := hturns.perm_put.map BoardUnit.cardId
    have hhand := List.getElem_cons_eraseIdx_perm hplace
    rw [(List.getElem?_eq_some_iff.mp hid).2] at hhand
    unfold Side.cards
    simp only [List.append_assoc]
    apply List.Perm.append_left
    apply List.Perm.trans ((hunits.append_left _).append_left _)
    apply List.Perm.trans _ (hhand.append_right _)
    rw [← List.append_assoc, ← List.append_assoc]
    apply List.perm_middle
  apply hissued.trans
  apply Conserves.trans _ (record_logs _ line).conserves
  exact conserves_setSide hside hcards

/-- Touches one after another keep the cards of both players. -/
theorem Coherent.touches_conserve {A : BoardUnit → BoardUnit → Prop} (hb : b.Coherent)
    (hA : ∀ u v, A u v → u.Endures v) (h : Touches A b b') :
  b.Conserves b'
  := by
  induction h with
  | refl => apply Conserves.refl
  | tail htouches htouch ih =>
    apply ih.trans
    apply (hb.touches hA htouches).touch_conserves hA htouch

theorem Coherent.strike_conserves (hb : b.Coherent) {attacker target : BoardUnit}
    {amount : Int32} (htarget : b.find? target.uid = some target)
    (h : Ruleset.strike b attacker target = .ok (b', amount)) :
  b.Conserves b'
  := by
  apply hb.touches_conserve _ (Ruleset.strike_touches htarget h)
  intro u v hengages
  apply hengages.endures

theorem Coherent.uses_conserves (hb : b.Coherent) {uid : Uid} {slot : UInt8}
    {ability : Ability} (h : b.Uses player uid slot ability b') :
  b.Conserves b'
  := by
  obtain ⟨side, hside, hexerts⟩ := h.exerts
  have hmarked := hb.shift (s := side.markUsed ⟨uid, slot⟩) hside rfl
  have hnoted : b.Conserves (b.setSide player (side.markUsed ⟨uid, slot⟩)) :=
    conserves_setSide hside (.refl _)
  apply hnoted.trans
  apply hmarked.touches_conserve _ hexerts
  intro u v hexerts
  apply hexerts.endures

end Battle

namespace Ruleset

variable {rules : Ruleset} {b b' : Battle} {player : UInt8}

theorem emitAndRefresh_conserves (hb : b.Coherent) {event : Event} {first second : Trigger}
    (h : (rules.emitAndRefresh event first second).Leads b b') :
  b.Conserves b'
  := by
  obtain ⟨m, hemit, hrefresh⟩ := leads_andThen.mp h
  have hmoves := rules.emit_moves _ _ _ hemit
  apply (hb.moves_conserve hmoves).trans
  apply refresh_conserves (hb.moves hmoves) hrefresh

theorem attackUnit_conserves (hb : b.Coherent) {attacker target : Uid}
    (h : (rules.attackUnit player attacker target).Leads b b') :
  b.Conserves b'
  := by
  obtain ⟨m, hdeclare, hrest⟩ := attackUnit_leads h
  have hb' := hb.noteAttacker attacker
  have hmoves := rules.emit_moves _ _ _ hdeclare
  have hm := hb'.moves hmoves
  apply Battle.Conserves.trans (hb'.moves_conserve hmoves)
  obtain ⟨-, hlogs⟩ | ⟨att, tgt, m₁, amount, line, m₂, -, -, htgt, hstrike, hhit, hsweep⟩ := hrest
  · apply hlogs.conserves
  · have hlogs := m₁.record_logs line
    have hmoves' := (rules.emit_moves _ _ _ hhit).trans (rules.sweep_moves hsweep)
    apply (hm.strike_conserves htgt hstrike).trans
    apply hlogs.conserves.trans
    apply ((hm.strike htgt hstrike).logs hlogs).moves_conserve hmoves'

theorem activate_conserves (hb : b.Coherent) {uid : Uid} {slot : UInt8} {target : Option Uid}
    {ability : Ability} {r : Report}
    (h : rules.activate player uid slot target ability b = .ok (b', r)) :
  b.Conserves b'
  := by
  obtain ⟨m, m', hpaid, hrun, huses⟩ := activate_ok h
  have hendures : ∀ u v : BoardUnit, u.Spares (fun _ => False) v → u.Endures v :=
    fun u v hspares => hspares.alters.endures
  have hm := hb.touches hendures hpaid
  have hmoves := rules.runActivation_moves hrun
  apply (hb.touches_conserve hendures hpaid).trans
  apply (hm.moves_conserve hmoves).trans
  apply (hm.moves hmoves).uses_conserves huses

theorem endTurn_conserves (hb : b.Coherent) (h : rules.endTurn.Leads b b') :
  b.Conserves b'
  := by
  obtain ⟨m₁, m₂, m₃, ⟨hchange, hm₁⟩, ⟨hsweep, -⟩, ⟨hpasses, hm₃⟩, hrest⟩ := endTurn_coherent hb h
  have hreset : b.Conserves { b with side0.used := ∅, side1.used := ∅ } := by
    apply Battle.conserves_of_sides
    · apply List.Perm.refl
    · apply List.Perm.refl
  have hended : Battle.Conserves { b with side0.used := ∅, side1.used := ∅ } m₁ :=
    Battle.conserves_changeAll (fun u v hv => (BoardUnit.endCycle_endures hv).cardId) hchange
  have hnext : m₂.Conserves m₃ := by
    apply Battle.conserves_of_sides
    · rw [hpasses.side0]
    · rw [hpasses.side1]
  apply hreset.trans
  apply hended.trans
  apply (hm₁.moves_conserve (rules.sweep_moves hsweep)).trans
  apply hnext.trans
  apply emitAndRefresh_conserves hm₃ hrest

/-- An accepted action keeps the cards of both players. -/
theorem resolve_conserves {action : Action} {resolution : Resolution}
    (h : rules.resolve b action = .ok resolution) :
  b.Conserves resolution.battle
  := by
  obtain ⟨permit, report, hpermit, hcarry⟩ := resolve_ok h
  obtain ⟨hintegrity, hchecked⟩ := permit_ok hpermit
  have hb := (Battle.corruption?_eq_none_iff.mp hintegrity).toCoherent
  cases permit with
  | playUnit player handIndex cell card =>
    obtain ⟨m, hdeploys, hrest⟩ := playUnit_ok hcarry
    obtain ⟨side, id, hside, hid, hcard, -⟩ := hchecked
    have hconserves : b.Conserves m := by
      apply hdeploys.conserves
      use side, hside
      rw [Catalog.find?_id hcard]
      apply hid
    apply hconserves.trans
    apply emitAndRefresh_conserves (hb.deploys hdeploys) hrest
  | move player uid cell =>
    obtain ⟨m, hrelocates, hrest⟩ := moveUnit_ok hcarry
    obtain ⟨m', hrearranges, hcoherent, hlogs⟩ := hb.relocates hrelocates
    apply hrearranges.conserves.trans
    apply hlogs.conserves.trans
    apply emitAndRefresh_conserves (hcoherent.logs hlogs) hrest
  | attack player attacker target =>
    apply attackUnit_conserves hb ⟨report, lift_fault_eq_ok.mp hcarry⟩
  | activate player uid slot target ability => apply activate_conserves hb hcarry
  | endTurn => apply endTurn_conserves hb ⟨report, lift_fault_eq_ok.mp hcarry⟩

/-- One battle comes from another by an accepted action. -/
def Accepts (rules : Ruleset) (b b' : Battle) : Prop :=
  ∃ action resolution, rules.resolve b action = .ok resolution ∧ resolution.battle = b'

end Ruleset

/-- Both players keep their cards, in deck, hand, discard pile and on the board together, in
every accepted action and over every number of them. -/
theorem cards_conserved :
  (∀ (rules : Ruleset) (b : Battle) (action : Action) (resolution : Resolution),
    rules.resolve b action = .ok resolution →
      ∀ player, (resolution.battle.cardsOf player).Perm (b.cardsOf player))
  ∧ ∀ (rules : Ruleset) (b b' : Battle), ReflTransGen rules.Accepts b b' →
      ∀ player, (b'.cardsOf player).Perm (b.cardsOf player)
  := by
  constructor
  · intro rules b action resolution h
    apply Ruleset.resolve_conserves h
  · intro rules b b' h
    induction h with
    | refl => apply Battle.Conserves.refl
    | tail _ hstep ih =>
      obtain ⟨action, resolution, h, rfl⟩ := hstep
      apply Battle.Conserves.trans ih (Ruleset.resolve_conserves h)

/-- The card of the unit that falls in a duel is on the discard pile of its owner. -/
theorem cards_conserved_duel :
  let rules : Ruleset := { catalog := ⟨[], List.nodup_nil⟩ }
  ∃ resolution, rules.resolve .duel (.attack 0 ⟨1⟩ ⟨2⟩) = .ok resolution
    ∧ (resolution.battle.cardsOf 1).Perm ["mourner", "scout"]
    ∧ ReflTransGen rules.Accepts .duel resolution.battle
    ∧ (resolution.battle.cardsOf 0).Perm ["scout", "mourner"]
  := by
  intro rules
  have haccepted : (rules.resolve .duel (.attack 0 ⟨1⟩ ⟨2⟩)).isOk := by decide
  cases h : rules.resolve .duel (.attack 0 ⟨1⟩ ⟨2⟩) with
  | error stop =>
    rw [h] at haccepted
    cases haccepted
  | ok resolution =>
    have hrun : ReflTransGen rules.Accepts .duel resolution.battle :=
      .single ⟨_, resolution, h, rfl⟩
    use resolution, rfl
    use cards_conserved.1 rules _ _ _ h 1, hrun
    apply cards_conserved.2 rules _ _ hrun 0

end CardBattle
