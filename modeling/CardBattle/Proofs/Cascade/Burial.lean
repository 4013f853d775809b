import CardBattle.Proofs.Cascade.Descent
import Mathlib.Data.List.Perm.Subperm

/-!
# The fallen

A unit leaves the boards only when it departs, and then its card comes to the discard pile of
its owner, behind the cards that are there (`Battle.Buries`).  A sweep leaves no unit without
vitality.  Still a unit that waits for others to depart first may be given vitality by what
their departures cause.  If no rule block for an elimination gives any (`Step.Revives`), then
all units depart that are without vitality when the sweep begins (`fallen_buried`).
-/

namespace CardBattle

open Relation (ReflTransGen)
open Change

/-- A step can give vitality to a unit that has none. -/
def Step.Revives : Step → Prop
  | .heal _ amount | .healAllies amount _ => 0 < amount
  | .modifyStat _ stat delta _ => stat = .vitality ∧ 0 < delta
  | _ => False

/-- The uid, the owner and the card of a unit. -/
def BoardUnit.badge (u : BoardUnit) : Uid × UInt8 × String :=
  (u.uid, u.owner, u.cardId)

/-- The unit keeps its uid, card and owner, and if it was without vitality it still is. -/
structure BoardUnit.Wanes (u v : BoardUnit) : Prop extends Persists u v where
  alive : v.isAlive → u.isAlive

namespace Battle

/-- The discard pile of a player. -/
def discardOf (b : Battle) (player : UInt8) : List String :=
  ((b.side? player).map Side.discard).getD []

/-- The cards of the units of a player that are not on the boards of another battle. -/
def lostCards (b b' : Battle) (player : UInt8) : List String :=
  ((b.lost b').filter fun u => u.owner = player).map BoardUnit.cardId

/-- All units are from before, and behind the cards that were on the discard pile of a player
are those of all units of the player that have been lost. -/
structure Buries (b b' : Battle) : Prop where
  descends : b.Descends BoardUnit.Persists b'
  discards : ∀ player, ∃ cards, b'.discardOf player = b.discardOf player ++ cards
    ∧ (b.lostCards b' player).Subperm cards

end Battle

variable {rules : Ruleset} {b m b' : Battle}

/-! ### Units that stay without vitality -/

namespace BoardUnit

variable {u v w : BoardUnit}

theorem Persists.badge (h : u.Persists v) :
  v.badge = u.badge
  := by rw [BoardUnit.badge, BoardUnit.badge, h.uid, h.owner, h.cardId]

/-- Whatever steps do to a unit, it keeps its uid, card and owner. -/
theorem Persists.isTie :
  IsTie (fun _ => True) Persists
  := by
  constructor
  case refl => exact Persists.refl
  case trans => exact fun _ _ _ => Persists.trans
  case elsewhere => exact fun _ _ => ⟨rfl, rfl, rfl⟩
  case does => exact fun _ _ _ _ hdoes => hdoes.1.alters.endures.toPersists

theorem Wanes.trans (huv : u.Wanes v) (hvw : v.Wanes w) :
  u.Wanes w
  := ⟨huv.toPersists.trans hvw.toPersists, fun h => huv.alive (hvw.alive h)⟩

/-- Damage gives no vitality. -/
theorem takeDamage_wanes {amount : Int32} (h : u.takeDamage amount = .ok v) :
  u.Wanes v
  := by
  use (takeDamage_restats h).persists
  have hvitality := (takeDamage_ok h).2
  rw [isAlive_iff, isAlive_iff]
  omega

/-- Healing by nothing gives no vitality. -/
theorem heal_wanes {amount gain : Int32} (hamount : ¬0 < amount)
    (h : u.heal amount = .ok (v, gain)) :
  u.Wanes v
  := by
  use (heal_restats h).persists
  have hvitality := (heal_ok h).2
  rw [isAlive_iff, isAlive_iff]
  rw [Int32.lt_iff_toInt_lt, Int32.toInt_zero] at hamount
  omega

/-- A mark gives no vitality. -/
theorem Marks.wanes (h : u.Marks v) :
  u.Wanes v
  := by
  use h.endures.toPersists
  rw [h.isAlive_eq]
  exact id

/-- A change of a statistic gives no vitality unless it is a gain of vitality. -/
theorem addBuff_wanes {stat : Stat} {delta : Int32} {duration : Duration}
    (hdelta : ¬(stat = .vitality ∧ 0 < delta)) (h : u.addBuff stat delta duration = .ok v) :
  u.Wanes v
  := by
  use (addBuff_restats h).persists
  obtain ⟨w, hw, rfl⟩ := addBuff_ok h
  rw [isAlive_iff, isAlive_iff]
  change 0 < w.vitality.toInt → _
  by_cases hstat : stat = .vitality
  · subst hstat
    obtain ⟨-, -, hvitality⟩ := modifyStat_vitality_ok hw
    rw [Int32.lt_iff_toInt_lt, Int32.toInt_zero] at hdelta
    have hloss : ¬0 < delta.toInt := fun hgain => hdelta ⟨rfl, hgain⟩
    omega
  · rw [modifyStat_other_ok hstat hw]
    exact id

/-- What steps do that give no vitality leaves a unit without vitality as it is. -/
theorem Wanes.isTie :
  IsTie (fun step => ¬step.Revives) Wanes
  := by
  constructor
  case refl => exact fun u => ⟨.refl u, id⟩
  case trans => exact fun _ _ _ => Wanes.trans
  case elsewhere => exact fun _ _ => ⟨⟨rfl, rfl, rfl⟩, id⟩
  case does =>
    rintro step u v hstep ⟨-, h⟩
    cases step with
    | damage => exact takeDamage_wanes h
    | heal | healAllies =>
      obtain ⟨gain, hheal⟩ := h
      exact heal_wanes hstep hheal
    | modifyStat => exact addBuff_wanes hstep h
    | preventActive => exact h.wanes
    | _ => exact h.1.wanes

end BoardUnit

/-! ### Cards of the lost -/

namespace Battle

/-- Where nothing gives vitality to the units without it, they are gone when all are alive. -/
theorem Descends.fallen (hb : b.Coherent) (h : b.Descends BoardUnit.Wanes b')
    (halive : ∀ v ∈ b'.units, v.isAlive) {u : BoardUnit} (hu : u ∈ b.units)
    (hfallen : ¬u.isAlive) :
  b'.find? u.uid = none
  := by
  by_contra hthere
  obtain ⟨v, hv⟩ := Option.ne_none_iff_exists'.mp hthere
  obtain ⟨w, hw, hwanes⟩ := h.find? hb (fun _ _ hwanes => hwanes.uid) hv
  obtain rfl := Option.some.inj ((find?_of_mem hb.distinct hu).symm.trans hw)
  apply hfallen
  apply hwanes.alive
  apply halive v (mem_of_find? hv)

/-- No unit is there again that has been lost. -/
theorem Descends.lost (h : b.Descends BoardUnit.Persists b') {uid : Uid}
    (hlost : b.find? uid = none) :
  b'.find? uid = none
  := by
  apply List.find?_eq_none.mpr
  intro v hv
  obtain ⟨u, hu, hpersists⟩ := h v hv
  rw [hpersists.uid]
  simpa using uid_ne_of_find? hlost hu

theorem lostCards_eq (b b' : Battle) (player : UInt8) :
  b.lostCards b' player = (((b.lost b').map BoardUnit.badge).filter
    fun badge => badge.2.1 = player).map fun badge => badge.2.2
  := by
  rw [List.filter_map, List.map_map]
  rfl

/-- Units are lost before some point or after it. -/
theorem Coherent.lostCards_perm (hb : b.Coherent) (hm : m.Coherent)
    (h : b.Descends BoardUnit.Persists m) (h' : m.Descends BoardUnit.Persists b')
    (player : UInt8) :
  (b.lostCards b' player).Perm (b.lostCards m player ++ m.lostCards b' player)
  := by
  have hbefore : (b.lost b').filter (fun u => !m.has u.uid) = b.lost m := by
    rw [lost, List.filter_filter, lost]
    apply List.filter_congr
    intro u _
    by_cases hlost : m.find? u.uid = none
    · simp [has, hlost, h'.lost hlost]
    · simp [has, hlost]
  have hafter : (((b.lost b').filter fun u => m.has u.uid).map BoardUnit.badge).Perm
      ((m.lost b').map BoardUnit.badge) := by
    have hpresent := (hb.perm_present (fun _ _ => BoardUnit.Persists.badge) hm h).filter
      fun badge => !b'.has badge.1
    rw [List.filter_map, List.filter_map] at hpresent
    rw [lost, List.filter_comm]
    exact hpresent
  have hsplit := List.filter_append_perm (fun u => !m.has u.uid) (b.lost b')
  simp only [Bool.not_not, hbefore] at hsplit
  have hbadges : ((b.lost b').map BoardUnit.badge).Perm
      ((b.lost m).map BoardUnit.badge ++ (m.lost b').map BoardUnit.badge) := by
    apply (hsplit.symm.map BoardUnit.badge).trans
    rw [List.map_append]
    apply hafter.append_left
  rw [lostCards_eq, lostCards_eq, lostCards_eq, ← List.map_append, ← List.filter_append]
  apply (hbadges.filter _).map

/-! ### Burials -/

theorem Buries.trans (hb : b.Coherent) (hm : m.Coherent) (h : b.Buries m)
    (h' : m.Buries b') :
  b.Buries b'
  := by
  use h.descends.trans (fun _ _ _ => BoardUnit.Persists.trans) h'.descends
  intro player
  obtain ⟨cards, hcards, hlost⟩ := h.discards player
  obtain ⟨cards', hcards', hlost'⟩ := h'.discards player
  use cards ++ cards'
  constructor
  · rw [hcards', hcards, List.append_assoc]
  · apply (hb.lostCards_perm hm h.descends h'.descends player).subperm.trans
    apply hlost.append hlost'

/-- Where all units are still there, none is to be buried. -/
theorem buries_of_present (hdescends : b.Descends BoardUnit.Persists b')
    (hpresent : ∀ u ∈ b.units, b'.has u.uid)
    (hdiscards : ∀ player, b.discardOf player <+: b'.discardOf player) :
  b.Buries b'
  := by
  use hdescends
  intro player
  obtain ⟨cards, hcards⟩ := hdiscards player
  have hnone : b.lost b' = [] := by
    apply List.filter_eq_nil_iff.mpr
    intro u hu
    simp [hpresent u hu]
  use cards, hcards.symm
  rw [lostCards, hnone]
  apply List.nil_subperm

theorem Buries.refl (b : Battle) :
  b.Buries b
  := buries_of_present (.refl .refl b) (fun _ => has_of_mem) fun _ => List.prefix_rfl

/-- The card of a lost unit is among those that have come to the discard pile of its owner. -/
theorem Buries.mem_discardOf (h : b.Buries b') {u : BoardUnit} (hu : u ∈ b.units)
    (hlost : b'.find? u.uid = none) :
  ∃ cards, b'.discardOf u.owner = b.discardOf u.owner ++ cards ∧ u.cardId ∈ cards
  := by
  obtain ⟨cards, hcards, hsubperm⟩ := h.discards u.owner
  use cards, hcards
  apply hsubperm.subset
  apply List.mem_map_of_mem
  simp only [List.mem_filter, lost, has, hlost, hu]
  simp

/-- The discard pile of a player after the side of a player was set. -/
theorem discardOf_setSide {player : UInt8} {side : Side} (hside : b.side? player = some side)
    (s : Side) (other : UInt8) :
  (b.setSide player s).discardOf other
    = if other = player then s.discard else b.discardOf other
  := by
  obtain ⟨rfl, -⟩ | ⟨rfl, -⟩ := side?_cases hside
  · by_cases h : other = 0
    · subst h
      rfl
    · simp [discardOf, setSide, side?, h]
  · by_cases h : other = 1
    · subst h
      rfl
    · simp [discardOf, setSide, side?, h]

theorem discardOf_replace (b : Battle) (u : BoardUnit) (player : UInt8) :
  (b.replace u).discardOf player = b.discardOf player
  := by
  simp only [discardOf, side?, replace]
  split <;> split <;> try rfl
  all_goals split <;> rfl

theorem Keeps.discardOf (h : b.Keeps b') (player : UInt8) :
  b.discardOf player <+: b'.discardOf player
  := by
  rw [Battle.discardOf, Battle.discardOf, side?, side?]
  split
  · apply h.side0.discard
  · split
    · apply h.side1.discard
    · apply List.prefix_rfl

/-- The discard piles grow only at their ends by a touch. -/
theorem Coherent.touch_discardOf {A : BoardUnit → BoardUnit → Prop} (hb : b.Coherent)
    (h : Touch A b b') (player : UInt8) :
  b.discardOf player <+: b'.discardOf player
  := by
  cases h with
  | note h => apply h.keeps.discardOf
  | alter =>
    use []
    rw [discardOf_replace, List.append_nil]
  | @shift owner s t hs h =>
    rw [discardOf_setSide hs]
    split
    · next hplayer =>
      subst hplayer
      rw [discardOf, hs]
      apply h.discard
    · apply List.prefix_rfl
  | swap h =>
    obtain rfl | ⟨m, hm, -, hlogs⟩ := stepSwap_leads hb h
    · apply List.prefix_rfl
    · apply (hm.keeps.trans hlogs.keeps).discardOf

/-- No unit is lost by a touch. -/
theorem Coherent.touch_buries {A : BoardUnit → BoardUnit → Prop} (hb : b.Coherent)
    (hA : ∀ u v, A u v → u.Endures v) (h : Touch A b b') :
  b.Buries b'
  := by
  apply buries_of_present _ (fun _ hu => hb.touch_has hA h (has_of_mem hu))
    (hb.touch_discardOf h)
  apply hb.touch_descends BoardUnit.Persists.isTie hA _ h
  intro u v halters
  apply (hA u v halters).toPersists

theorem Logs.buries (h : b.Logs b') :
  b.Buries b'
  := by
  apply buries_of_present (descends_of_units BoardUnit.Persists.refl h.units_eq) _
    h.keeps.discardOf
  intro u hu
  rw [← h.units_eq] at hu
  apply has_of_mem hu

/-- No unit is lost by touches. -/
theorem Coherent.touches_bury {A : BoardUnit → BoardUnit → Prop} (hb : b.Coherent)
    (hA : ∀ u v, A u v → u.Endures v) (h : Touches A b b') :
  b.Buries b'
  := by
  induction h with
  | refl => apply Buries.refl
  | tail htouches htouch ih =>
    have hm := hb.touches hA htouches
    apply ih.trans hb hm (hm.touch_buries hA htouch)

/-- Only the discard pile of its owner changes when a unit departs. -/
theorem Departs.buries (hb : b.Coherent) {gone : BoardUnit} (h : Departs gone b b') :
  b.Buries b'
  := by
  use h.descends BoardUnit.Persists.refl
  have hlost : b.lost b' = [gone] := by
    obtain ⟨l, r, hold, hnew⟩ := h.units
    have hstay : ∀ u ∈ l ++ r, (!b'.has u.uid) = false := by
      intro u hu
      rw [← hnew] at hu
      simp [has_of_mem hu]
    have hgone : (!b'.has gone.uid) = true := by
      have hnone : b'.find? gone.uid = none := by
        apply List.find?_eq_none.mpr
        intro u hu
        simpa using h.fresh hb u hu
      simp [has, hnone]
    have hl : l.filter (fun u => !b'.has u.uid) = [] :=
      List.filter_eq_nil_iff.mpr fun u hu => by simp [hstay u (List.mem_append_left _ hu)]
    have hr : r.filter (fun u => !b'.has u.uid) = [] :=
      List.filter_eq_nil_iff.mpr fun u hu => by simp [hstay u (List.mem_append_right _ hu)]
    rw [lost, hold, List.filter_append, List.filter_append, hl, hr]
    simp [hgone]
  obtain ⟨side, i, board, line, hside, -, rfl⟩ := h.leaves
  intro player
  rw [lostCards, hlost]
  change ∃ cards, (b.setSide gone.owner _).discardOf player = _ ∧ _
  rw [discardOf_setSide hside]
  by_cases hplayer : player = gone.owner
  · subst hplayer
    use [gone.cardId]
    simp [discardOf, hside]
  · use []
    simp [hplayer, Ne.symm hplayer]

/-- In a move a unit is buried, or none is lost. -/
theorem Coherent.move_buries (hb : b.Coherent) (h : Move b b') :
  b.Buries b'
  := by
  cases h with
  | touch h => apply hb.touch_buries (fun _ _ halters => halters.endures) h
  | depart h => apply (hb.departs h).2.buries hb

/-- In the course of a cascade all units are buried that are lost. -/
theorem Coherent.moves_bury (hb : b.Coherent) (h : Moves b b') :
  b.Buries b'
  := by
  induction h with
  | refl => apply Buries.refl
  | tail hmoves hmove ih =>
    have hm := hb.moves hmoves
    apply ih.trans hb hm (hm.move_buries hmove)

end Battle

/-! ### Sweeps -/

namespace Ruleset

/-- The first unit without vitality departs in a sweep. -/
theorem sweep_first (hb : b.Coherent) {source : Option Uid} {depth : UInt32}
    (h : (rules.sweep source depth).Leads b b') {u : BoardUnit}
    (hu : b.units.find? (fun u => !u.isAlive) = some u) :
  b'.find? u.uid = none
  := by
  obtain ⟨r, h⟩ := h
  obtain ⟨n, hn⟩ : ∃ n, b.units.length = n + 1 := by
    apply Nat.exists_eq_add_one_of_ne_zero
    intro hzero
    rw [List.eq_nil_of_length_eq_zero hzero] at hu
    cases hu
  rw [sweep, sweepWith, hn] at h
  obtain ⟨hnone, -⟩ | ⟨owner, gone, m, m', hremove, hannounce, hrest⟩ := sweepUpTo_leads ⟨r, h⟩
  · have halive := hb.removeFallen?_eq_none_iff.mp hnone u (List.mem_of_find?_eq_some hu)
    have hfallen := List.find?_some hu
    rw [halive] at hfallen
    cases hfallen
  · obtain ⟨hfirst, -⟩ := hb.removeFallen?_eq_some hremove
    obtain rfl := Option.some.inj (hu.symm.trans hfirst)
    have hdeparts := (hb.departs hremove).2
    have hmoves := (emits_moves rules.emit_moves hannounce).trans
      (sweepUpTo_moves rules.emit_moves hrest)
    apply ((hdeparts.coherent hb).moves_bury hmoves).descends.lost
    apply List.find?_eq_none.mpr
    intro v hv
    simpa using hdeparts.fresh hb v hv

end Ruleset

/-- A sweep leaves only living units on the boards, and it buries the units that leave.  The
first unit without vitality leaves in any case.  So do all others if no rule block for an
elimination gives vitality. -/
theorem fallen_buried (hb : b.Coherent) {source : Option Uid} {depth : UInt32}
    (h : (rules.sweep source depth).Leads b b') :
  b'.Sound ∧ b.Buries b'
    ∧ (∀ u, b.units.find? (fun u => !u.isAlive) = some u → b'.find? u.uid = none)
    ∧ ((∀ trigger ∈ Trigger.eliminations,
        rules.AnswersWith (fun step => ¬step.Revives) trigger) →
      ∀ u ∈ b.units, ¬u.isAlive → b'.find? u.uid = none)
  := by
  have hsound := Ruleset.sweep_sound hb h
  refine ⟨hsound, hb.moves_bury (rules.sweep_moves h), ?_, ?_⟩
  · intro u hu
    apply Ruleset.sweep_first hb h hu
  · intro hrules u hu hfallen
    have hwanes := Ruleset.sweep_descends BoardUnit.Wanes.isTie (fun _ => id) hrules hb h
    apply hwanes.fallen hb hsound.alive hu hfallen

/-- A battle stays coherent when all units are damaged. -/
theorem Battle.Coherent.damageAll (hb : b.Coherent) {amount : Int32}
    (h : b.changeAll (fun u => u.takeDamage amount) = .ok b') :
  b'.Coherent
  := by
  apply hb.changeAll _ h
  intro u v hv
  apply (BoardUnit.takeDamage_restats hv).endures fun _ => BoardUnit.takeDamage_bounded hv

/-- A card whose unit runs a script when a unit is eliminated. -/
def Card.keener (script : List Step) : Card :=
  { id := "mourner"
    name := "Keener"
    abilities := [{ kind := .passive, rules := [{ trigger := .onUnitEliminated, script }] }] }

/-- Both units of a duel have fallen, and both are buried, though a card is drawn in between. -/
theorem fallen_buried_duel :
  let rules : Ruleset := { catalog := ⟨[.keener [.draw 1, .damage (.uid 2) 1]], by decide⟩ }
  ∃ b b', Battle.duel.changeAll (fun u => u.takeDamage 3) = .ok b
    ∧ b.Coherent ∧ (∀ u ∈ b.units, ¬u.isAlive) ∧ b.units.map BoardUnit.uid = [⟨1⟩, ⟨2⟩]
    ∧ (rules.sweep none 0).Leads b b'
    ∧ b'.Sound ∧ b.Buries b' ∧ ∀ u ∈ b.units, b'.find? u.uid = none
  := by
  intro rules
  have hduel : Battle.duel.Sound := Battle.corruption?_eq_none_iff.mp (by decide)
  have hrun : (Battle.duel.changeAll fun u => u.takeDamage 3).toOption.any fun b =>
      (∀ u ∈ b.units, ¬u.isAlive) ∧ b.units.map BoardUnit.uid = [⟨1⟩, ⟨2⟩]
        ∧ (rules.sweep none 0 b).isOk := by
    decide +kernel
  cases hhurt : Battle.duel.changeAll fun u => u.takeDamage 3 with
  | error fault =>
    rw [hhurt] at hrun
    cases hrun
  | ok b =>
    rw [hhurt] at hrun
    obtain ⟨hfallen, huids, hok⟩ := of_decide_eq_true hrun
    have hb := hduel.toCoherent.damageAll hhurt
    cases hsweep : rules.sweep none 0 b with
    | error fault =>
      rw [hsweep] at hok
      cases hok
    | ok result =>
      obtain ⟨b', r⟩ := result
      obtain ⟨hsound, hburies, -, hall⟩ := fallen_buried hb ⟨r, hsweep⟩
      refine ⟨b, b', rfl, hb, hfallen, huids, ⟨r, hsweep⟩, hsound, hburies, ?_⟩
      intro u hu
      apply hall _ u hu (hfallen u hu)
      intro trigger _
      apply Ruleset.answersWith_of_cards
      simp [rules, Card.keener, scriptAll, Step.All, Step.Revives]

/-- One of two units that have fallen is healed while it waits for the other to depart, and it
stays. -/
theorem fallen_revived_duel :
  let rules : Ruleset := { catalog := ⟨[.keener [.heal (.uid 2) 3]], by decide⟩ }
  ∃ b b', Battle.duel.changeAll (fun u => u.takeDamage 3) = .ok b
    ∧ b.Coherent ∧ (rules.sweep none 0).Leads b b'
    ∧ ∃ u ∈ b.units, ¬u.isAlive ∧ (b'.find? u.uid).isSome
  := by
  intro rules
  have hduel : Battle.duel.Sound := Battle.corruption?_eq_none_iff.mp (by decide)
  have hrun : (Battle.duel.changeAll fun u => u.takeDamage 3).toOption.any fun b =>
      (rules.sweep none 0 b).toOption.any fun result =>
        ∃ u ∈ b.units, ¬u.isAlive ∧ (result.1.find? u.uid).isSome := by
    decide +kernel
  cases hhurt : Battle.duel.changeAll fun u => u.takeDamage 3 with
  | error fault =>
    rw [hhurt] at hrun
    cases hrun
  | ok b =>
    cases hsweep : rules.sweep none 0 b with
    | error fault =>
      simp [hhurt, hsweep, Except.toOption] at hrun
    | ok result =>
      obtain ⟨b', r⟩ := result
      simp only [hhurt, hsweep, Except.toOption, Option.any_some] at hrun
      have hb := hduel.toCoherent.damageAll hhurt
      exact ⟨b, b', rfl, hb, ⟨r, hsweep⟩, of_decide_eq_true hrun⟩

end CardBattle
