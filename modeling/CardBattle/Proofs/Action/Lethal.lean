import CardBattle.Proofs.Action.Soundness
import CardBattle.Proofs.Cascade.Burial

/-!
# Lethal attacks

Where no rule block is for the declaration of attacks, an attack that is accepted strikes its
target (`attackUnit_assaults`), and damage of at least the vitality of the target leaves it
without any.  It stays on the board until the hit has been broadcast, so it may be given
vitality by what answers to the hit.  If no rule block for a hit or for an elimination gives
any, the attack is the end of the target (`lethal_buried`).
-/

namespace CardBattle

open Relation (ReflTransGen)
open Change

/-- An attack of a unit on another that nothing answers to when it is declared: the target is
struck, this is broadcast, and the boards are swept. -/
structure Ruleset.Assaults (rules : Ruleset) (player : UInt8) (att tgt : BoardUnit)
    (b struck hit b' : Battle) : Prop where
  coherent : b.Coherent
  target : b.find? tgt.uid = some tgt
  strike : ∃ m amount line, strike b att tgt = .ok (m, amount) ∧ struck = m.record line
  answers : (rules.emit (.ofAttack .onAttackHit player att.uid tgt.uid)).Leads struck hit
  sweep : (rules.sweep (some att.uid) 1).Leads hit b'

/-- Damage of at least its vitality leaves a unit without any. -/
theorem BoardUnit.takeDamage_fells {u v : BoardUnit} {amount : Int32}
    (hlethal : u.vitality ≤ amount) (h : u.takeDamage amount = .ok v) :
  ¬v.isAlive
  := by
  have hvitality := (takeDamage_ok h).2
  rw [isAlive_iff]
  rw [Int32.le_iff_toInt_le] at hlethal
  omega

/-! ### Targets -/

/-- What an attack can reach are some of the units on the board, in scan order. -/
theorem Board.reachable_sublist (board : Board) (reach : Option Reach) :
  (board.reachable reach).Sublist board.units
  := by
  have hlane : ∀ lane, (board.laneUnits lane).Sublist board.units := by
    intro lane
    cases lane with
    | front => apply (List.take_sublist _ _).filterMap
    | back => apply (List.drop_sublist _ _).filterMap
  unfold reachable
  split
  · apply hlane
  · apply List.Sublist.refl
  · dsimp only
    split
    · apply hlane
    · apply hlane

namespace Battle

variable {b b' : Battle} {attacker target : Uid}

/-- The target of an attack is a unit of the opponent. -/
theorem Coherent.exists_target (hb : b.Coherent) {att : BoardUnit}
    (hatt : b.find? attacker = some att) (h : target ∈ b.attackTargets attacker) :
  ∃ tgt, b.find? target = some tgt ∧ tgt.owner = opponentOf att.owner
  := by
  rw [attackTargets, hatt] at h
  dsimp only at h
  split at h
  · cases h
  · next side hside =>
    obtain ⟨tgt, htgt, rfl⟩ := List.mem_map.mp h
    have hmem := (side.board.reachable_sublist att.reach).subset htgt
    use tgt, find?_of_mem hb.distinct (mem_units_of_side hside hmem)
    apply (hb.arranged hside).owner hmem

/-! ### Strikes -/

/-- A strike that does enough damage leaves the target without vitality. -/
theorem Coherent.strike_fells (hb : b.Coherent) {att tgt : BoardUnit} {amount : Int32}
    (htgt : b.find? tgt.uid = some tgt) (hlethal : tgt.vitality ≤ att.damageTo tgt)
    (h : Ruleset.strike b att tgt = .ok (b', amount)) :
  ∃ v, b'.find? tgt.uid = some v ∧ ¬v.isAlive
  := by
  rw [← Ruleset.strike_amount h] at hlethal
  obtain ⟨hurt, hhurt, hrest⟩ := Ruleset.strike_ok h
  have hfallen := BoardUnit.takeDamage_fells hlethal hhurt
  have hendures := (BoardUnit.Engages.hurt hhurt).endures
  have hfound : (b.replace hurt).find? tgt.uid = some hurt := by
    rw [hb.find?_replace htgt hendures.uid, if_pos rfl]
  obtain ⟨-, rfl⟩ | ⟨u, modifiers, hu, rfl⟩ := hrest
  · exact ⟨hurt, hfound, hfallen⟩
  · have hm := hb.replace htgt hendures
    rw [← find?_uid hu] at hu
    rw [hm.find?_replace (v := { u with hasAttacked := true, modifiers }) hu rfl]
    split
    · next hself =>
      -- A unit that strikes itself.
      rw [← hself, hfound] at hu
      obtain rfl := Option.some.inj hu
      exact ⟨_, rfl, hfallen⟩
    · exact ⟨hurt, hfound, hfallen⟩

/-- No unit is lost by a strike. -/
theorem Coherent.strike_buries (hb : b.Coherent) {att tgt : BoardUnit} {amount : Int32}
    (htgt : b.find? tgt.uid = some tgt) (h : Ruleset.strike b att tgt = .ok (b', amount)) :
  b.Buries b'
  := by
  apply hb.touches_bury _ (Ruleset.strike_touches htgt h)
  intro u v hengages
  apply hengages.endures

end Battle

/-! ### Attacks -/

namespace Ruleset

variable {rules : Ruleset} {b b' : Battle} {player : UInt8} {attacker target : Uid}

/-- An attack that is accepted has been carried out. -/
theorem resolve_attack {resolution : Resolution}
    (h : rules.resolve b (.attack player attacker target) = .ok resolution) :
  b.Sound ∧ (∃ att tgt, b.find? attacker = some att ∧ b.find? target = some tgt
      ∧ tgt.owner = opponentOf att.owner)
    ∧ (rules.attackUnit player attacker target).Leads b resolution.battle
  := by
  obtain ⟨permit, r, hpermit, hcarry⟩ := resolve_ok h
  obtain ⟨hintegrity, hchecked⟩ := permit_ok hpermit
  have hgrants := permit_grants hpermit
  have hb := Battle.corruption?_eq_none_iff.mp hintegrity
  cases permit with
  | attack =>
    obtain ⟨rfl, rfl, rfl⟩ := Action.attack.inj hgrants
    obtain ⟨att, hatt, -, -, -, htarget⟩ := hchecked
    obtain ⟨tgt, htgt, howner⟩ := hb.toCoherent.exists_target hatt htarget
    exact ⟨hb, ⟨att, tgt, hatt, htgt, howner⟩, r, lift_fault_eq_ok.mp hcarry⟩
  | endTurn =>
    obtain ⟨_, hgrants⟩ := hgrants
    cases hgrants
  | _ => cases hgrants

/-- In an attack all units are buried that are lost. -/
theorem attackUnit_buries (hb : b.Coherent)
    (h : (rules.attackUnit player attacker target).Leads b b') :
  b.Buries b'
  := by
  obtain ⟨m, hdeclare, hrest⟩ := attackUnit_leads h
  have hb' := hb.noteAttacker attacker
  have hmoves := rules.emit_moves _ _ _ hdeclare
  have hm := hb'.moves hmoves
  have hafter : m.Buries b' := by
    obtain ⟨-, hlogs⟩ | ⟨att, tgt, m₁, amount, line, m₂, -, -, htgt, hstrike, hhit, hsweep⟩ :=
      hrest
    · apply hlogs.buries
    · have hstruck := hm.strike htgt hstrike
      have hlogs := m₁.record_logs line
      apply (hm.strike_buries htgt hstrike).trans hm hstruck
      apply hlogs.buries.trans hstruck (hstruck.logs hlogs)
      apply (hstruck.logs hlogs).moves_bury
      apply (rules.emit_moves _ _ _ hhit).trans (rules.sweep_moves hsweep)
  have hburies := (hb'.moves_bury hmoves).trans hb' hm hafter
  exact ⟨hburies.descends, hburies.discards⟩

/-- Where no rule block is for the declaration of attacks, nothing answers to it. -/
theorem attackUnit_assaults (hquiet : ∀ cardId, rules.blocksOf cardId .onAttackDeclare = [])
    (hb : b.Coherent) {att tgt : BoardUnit} (hatt : b.find? attacker = some att)
    (htgt : b.find? target = some tgt)
    (h : (rules.attackUnit player attacker target).Leads b b') :
  ∃ struck hit, rules.Assaults player att tgt
    { b with firstAttacker := b.firstAttacker <|> some attacker } struck hit b'
  := by
  obtain ⟨m, hdeclare, hrest⟩ := attackUnit_leads h
  obtain rfl := emit_nothing hquiet hdeclare
  obtain ⟨hnone | hnone, -⟩
      | ⟨att', tgt', m₁, amount, line, m₂, hatt', rfl, htgt', hstrike, hhit, hsweep⟩ := hrest
  · cases hatt.symm.trans hnone
  · cases htgt.symm.trans hnone
  · obtain rfl := Option.some.inj (hatt.symm.trans hatt')
    obtain rfl := Option.some.inj (htgt.symm.trans htgt')
    have huid := Battle.find?_uid hatt
    subst huid
    use m₁.record line, m₂
    exact {
      coherent := hb.congr hb.active rfl rfl rfl
      target := htgt
      strike := ⟨m₁, amount, line, hstrike, rfl⟩
      answers := hhit
      sweep := hsweep }

namespace Assaults

variable {att tgt : BoardUnit} {struck hit : Battle}
  (h : rules.Assaults player att tgt b struck hit b')

include h

theorem coherent_struck :
  struck.Coherent
  := by
  obtain ⟨m, amount, line, hstrike, rfl⟩ := h.strike
  apply (h.coherent.strike h.target hstrike).logs (m.record_logs line)

theorem coherent_hit :
  hit.Coherent
  := h.coherent_struck.moves (rules.emit_moves _ _ _ h.answers)

/-- If the damage is lethal and nothing that answers gives vitality, the target is lost. -/
theorem fells (hrules : ∀ trigger ∈ .onAttackHit :: Trigger.eliminations,
      rules.AnswersWith (fun step => ¬step.Revives) trigger)
    (hlethal : tgt.vitality ≤ att.damageTo tgt) :
  b'.find? tgt.uid = none
  := by
  obtain ⟨m, amount, line, hstrike, rfl⟩ := h.strike
  obtain ⟨v, hv, hfallen⟩ := h.coherent.strike_fells h.target hlethal hstrike
  -- Without vitality the target stays so until all units on the boards are alive.
  have hwanes : (m.record line).Descends BoardUnit.Wanes b' := by
    apply Battle.Descends.trans BoardUnit.Wanes.isTie.trans
    · apply emit_descends BoardUnit.Wanes.isTie (fun _ => List.mem_cons_of_mem _) hrules
        _ _ _ (by simp [Event.ofAttack]) h.coherent_struck h.answers
    · apply sweep_descends BoardUnit.Wanes.isTie (fun _ => List.mem_cons_of_mem _) hrules
        h.coherent_hit h.sweep
  rw [← Battle.find?_uid hv]
  apply hwanes.fallen h.coherent_struck (sweep_sound h.coherent_hit h.sweep).alive
    (Battle.mem_of_find? hv) hfallen

end Assaults

end Ruleset

/-- Where no rule block is for the declaration of attacks, and none for a hit or an elimination
gives vitality, an attack with damage of at least the vitality of the target takes it off the
boards, and its card comes to the discard pile of its owner. -/
theorem lethal_buried {rules : Ruleset} {b : Battle} {player : UInt8} {attacker target : Uid}
    (hquiet : ∀ cardId, rules.blocksOf cardId .onAttackDeclare = [])
    (hrules : ∀ trigger ∈ .onAttackHit :: Trigger.eliminations,
      rules.AnswersWith (fun step => ¬step.Revives) trigger)
    {resolution : Resolution}
    (h : rules.resolve b (.attack player attacker target) = .ok resolution) :
  ∃ att tgt, b.find? attacker = some att ∧ b.find? target = some tgt
    ∧ (tgt.vitality ≤ att.damageTo tgt → resolution.battle.find? target = none
      ∧ ∃ cards, resolution.battle.discardOf tgt.owner = b.discardOf tgt.owner ++ cards
        ∧ tgt.cardId ∈ cards)
  := by
  obtain ⟨hb, ⟨att, tgt, hatt, htgt, -⟩, hattack⟩ := Ruleset.resolve_attack h
  obtain ⟨struck, hit, hassaults⟩ :=
    Ruleset.attackUnit_assaults hquiet hb.toCoherent hatt htgt hattack
  refine ⟨att, tgt, hatt, htgt, ?_⟩
  intro hlethal
  have huid := Battle.find?_uid htgt
  subst huid
  have hgone := hassaults.fells hrules hlethal
  use hgone
  have hburies := Ruleset.attackUnit_buries hb.toCoherent hattack
  apply hburies.mem_discardOf (Battle.mem_of_find? htgt) hgone

/-- A card whose unit runs a script when a unit is hit in an attack. -/
def Card.dodger (script : List Step) : Card :=
  { id := "scout"
    name := "Dodger"
    abilities := [{ kind := .passive, rules := [{ trigger := .onAttackHit, script }] }] }

/-- A unit that is hit with lethal damage draws a card and damages itself, and it is buried. -/
theorem lethal_buried_duel :
  let rules : Ruleset := { catalog := ⟨[.dodger [.draw 1, .damage .self 1]], by decide⟩ }
  ∃ resolution, rules.resolve .duel (.attack 0 ⟨1⟩ ⟨2⟩) = .ok resolution
    ∧ ∃ att tgt, Battle.duel.find? ⟨1⟩ = some att ∧ Battle.duel.find? ⟨2⟩ = some tgt
      ∧ tgt.vitality ≤ att.damageTo tgt ∧ resolution.battle.find? ⟨2⟩ = none
      ∧ ∃ cards, resolution.battle.discardOf tgt.owner = Battle.duel.discardOf tgt.owner ++ cards
        ∧ tgt.cardId ∈ cards
  := by
  intro rules
  have hquiet : ∀ card ∈ rules.catalog.cards, card.blocksFor .onAttackDeclare = [] := by decide
  have hrules : ∀ trigger, rules.AnswersWith (fun step => ¬step.Revives) trigger := by
    intro trigger
    apply Ruleset.answersWith_of_cards
    simp [rules, Card.dodger, scriptAll, Step.All, Step.Revives]
  have haccepted : (rules.resolve .duel (.attack 0 ⟨1⟩ ⟨2⟩)).isOk := by decide +kernel
  cases h : rules.resolve .duel (.attack 0 ⟨1⟩ ⟨2⟩) with
  | error stop =>
    rw [h] at haccepted
    cases haccepted
  | ok resolution =>
    obtain ⟨att, tgt, hatt, htgt, hburied⟩ :=
      lethal_buried (Ruleset.blocksOf_eq_nil hquiet) (fun _ _ => hrules _) h
    have hlethal : (Battle.duel.find? ⟨1⟩).all fun att =>
        (Battle.duel.find? ⟨2⟩).all fun tgt => tgt.vitality ≤ att.damageTo tgt := by
      decide
    rw [hatt, htgt] at hlethal
    have hlethal := of_decide_eq_true hlethal
    exact ⟨resolution, rfl, att, tgt, hatt, htgt, hlethal, hburied hlethal⟩

/-- A unit that is hit with lethal damage heals itself before the boards are swept, and it
stays. -/
theorem lethal_survived_duel :
  let rules : Ruleset := { catalog := ⟨[.dodger [.heal .self 1]], by decide⟩ }
  (∀ cardId, rules.blocksOf cardId .onAttackDeclare = []) ∧ Battle.duel.corruption? = none
    ∧ ∃ resolution, rules.resolve .duel (.attack 0 ⟨1⟩ ⟨2⟩) = .ok resolution
      ∧ ∃ att tgt, Battle.duel.find? ⟨1⟩ = some att ∧ Battle.duel.find? ⟨2⟩ = some tgt
        ∧ tgt.vitality ≤ att.damageTo tgt ∧ (resolution.battle.find? ⟨2⟩).isSome
  := by
  intro rules
  have hsurvives : (rules.resolve .duel (.attack 0 ⟨1⟩ ⟨2⟩)).toOption.any fun resolution =>
      (Battle.duel.find? ⟨1⟩).any fun att => (Battle.duel.find? ⟨2⟩).any fun tgt =>
        tgt.vitality ≤ att.damageTo tgt ∧ (resolution.battle.find? ⟨2⟩).isSome := by
    decide +kernel
  have hquiet : ∀ card ∈ rules.catalog.cards, card.blocksFor .onAttackDeclare = [] := by decide
  refine ⟨Ruleset.blocksOf_eq_nil hquiet, by decide, ?_⟩
  cases h : rules.resolve .duel (.attack 0 ⟨1⟩ ⟨2⟩) with
  | error stop =>
    rw [h] at hsurvives
    cases hsurvives
  | ok resolution =>
    rw [h] at hsurvives
    simp only [Except.toOption, Option.any_some] at hsurvives
    obtain ⟨att, hatt, hsurvives⟩ := (Option.any_eq_true _ _).mp hsurvives
    obtain ⟨tgt, htgt, hsurvives⟩ := (Option.any_eq_true _ _).mp hsurvives
    obtain ⟨hlethal, hthere⟩ := of_decide_eq_true hsurvives
    exact ⟨resolution, rfl, att, tgt, hatt, htgt, hlethal, hthere⟩

end CardBattle
