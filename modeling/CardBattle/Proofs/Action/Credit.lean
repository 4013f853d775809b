import CardBattle.Proofs.Action.Lethal
import CardBattle.Proofs.BoardUnit.Base
import CardBattle.Proofs.Cascade.Mourning

/-!
# Credit for eliminations

The unit of a hunter gains defence when it is the source of the elimination of an enemy.  The
source of an elimination is the unit whose sweep takes the unit off the boards.  After an attack
that is the attacker, unless something that answers to the hit has wounded a unit: then the
boards are swept on behalf of the unit that answers, with the target of the attack on them.  If
no rule block for a hit wounds, a hunter is credited for the target of its attack
(`kill_credited`).
-/

namespace CardBattle

open Relation (ReflTransGen)
open Change

/-! ### Hunters -/

/-- The rule block that adds one for good to the defence of its unit, when this is the source of
the elimination of an enemy. -/
def RuleBlock.trophy : RuleBlock :=
  { RuleBlock.mourning .onEnemyEliminated .defence with condition := some .selfIsSource }

/-- The catalog has a card whose only rule block is that one, and no other card changes a
defence. -/
structure Ruleset.HasHunter (rules : Ruleset) (hunter : Card) : Prop where
  member : hunter ∈ rules.catalog.cards
  hunts : ∃ ability, hunter.abilities = [ability] ∧ ability.rules = [.trophy]
  others : ∀ card ∈ rules.catalog.cards, card.id ≠ hunter.id →
    card.ModifiesOnly (· ≠ .defence)

/-- A step lowers a defence. -/
def Step.Softens : Step → Prop
  | .modifyStat _ stat delta _ => stat = .defence ∧ delta < 0
  | _ => False

/-- The unit keeps its uid, card and owner, and its defence is not lower than it was. -/
structure BoardUnit.Hardens (u v : BoardUnit) : Prop extends Persists u v where
  defence : u.defence.toInt ≤ v.defence.toInt

/-- The unit keeps its uid, card and owner, and its defence is higher than it was. -/
structure BoardUnit.Scores (u v : BoardUnit) : Prop extends Persists u v where
  defence : u.defence.toInt + 1 ≤ v.defence.toInt

namespace Ruleset.HasHunter

variable {rules : Ruleset} {hunter : Card} (h : rules.HasHunter hunter)

include h

theorem blocksOf_hunter :
  rules.blocksOf hunter.id .onEnemyEliminated = [.trophy]
  := by
  have hfound : rules.catalog.find? hunter.id = some hunter :=
    Battle.find?_of_key rules.catalog.distinct h.member
  obtain ⟨ability, habilities, hrules⟩ := h.hunts
  simp only [Ruleset.blocksOf, hfound, Card.blocksFor, habilities, List.flatMap_cons,
    List.flatMap_nil, Ability.blocksFor, hrules, List.append_nil]
  rfl

/-- No step of a rule block lowers a defence. -/
theorem answersWith (trigger : Trigger) :
  rules.AnswersWith (fun step => ¬step.Softens) trigger
  := by
  apply answersWith_of_cards
  intro card hcard ability hability block hblock _
  by_cases hid : card.id = hunter.id
  · have hfound := Battle.find?_of_key rules.catalog.distinct h.member
    rw [← hid, Battle.find?_of_key rules.catalog.distinct hcard] at hfound
    obtain rfl := Option.some.inj hfound
    obtain ⟨own, habilities, hrules⟩ := h.hunts
    rw [habilities] at hability
    obtain rfl := List.mem_singleton.mp hability
    rw [hrules] at hblock
    obtain rfl := List.mem_singleton.mp hblock
    refine ⟨?_, trivial⟩
    rintro ⟨-, hloss⟩
    revert hloss
    decide
  · have hothers := h.others card hcard hid ability hability block hblock
    apply scriptAll_mono _ _ (scriptModifiesOnly_all _ hothers)
    intro step hstep hsoftens
    cases step with
    | modifyStat => exact hstep hsoftens.1
    | _ => exact hsoftens

end Ruleset.HasHunter

/-! ### Defence that does not fall -/

namespace BoardUnit

variable {u v w : BoardUnit}

theorem Hardens.refl (u : BoardUnit) :
  u.Hardens u
  := ⟨.refl u, Int.le_refl _⟩

theorem Hardens.trans (huv : u.Hardens v) (hvw : v.Hardens w) :
  u.Hardens w
  := ⟨huv.toPersists.trans hvw.toPersists, Int.le_trans huv.defence hvw.defence⟩

theorem Hardens.scores (huv : u.Hardens v) (hvw : v.Scores w) :
  u.Scores w
  := by
  use huv.toPersists.trans hvw.toPersists
  have hkept := huv.defence
  have hgained := hvw.defence
  omega

theorem Scores.hardens (huv : u.Scores v) (hvw : v.Hardens w) :
  u.Scores w
  := by
  use huv.toPersists.trans hvw.toPersists
  have hgained := huv.defence
  have hkept := hvw.defence
  omega

theorem hardens_of_eq (hpersists : u.Persists v) (h : v.defence = u.defence) :
  u.Hardens v
  := ⟨hpersists, Int.le_of_eq (by rw [h])⟩

theorem takeDamage_hardens {amount : Int32} (h : u.takeDamage amount = .ok v) :
  u.Hardens v
  := by
  apply hardens_of_eq (takeDamage_restats h).persists
  rw [(takeDamage_ok h).1]

theorem Marks.hardens (h : u.Marks v) :
  u.Hardens v
  := by
  apply hardens_of_eq h.endures.toPersists
  rw [h.eq]

/-- A buff leaves the defence no lower, unless it takes from it. -/
theorem addBuff_hardens {stat : Stat} {delta : Int32} {duration : Duration}
    (hdelta : ¬(stat = .defence ∧ delta < 0)) (h : u.addBuff stat delta duration = .ok v) :
  u.Hardens v
  := by
  use (addBuff_restats h).persists
  obtain ⟨w, hw, rfl⟩ := addBuff_ok h
  have hdefence : Stat.defence ≠ .vitality := by decide
  have hvalue := modifyStat_stat hdefence hw
  change w.defence.toInt = u.defence.toInt + _ at hvalue
  change u.defence.toInt ≤ w.defence.toInt
  rw [Int32.lt_iff_toInt_lt, Int32.toInt_zero] at hdelta
  split at hvalue
  · next hstat =>
    have hgain : ¬delta.toInt < 0 := fun hloss => hdelta ⟨hstat, hloss⟩
    omega
  · omega

/-- Steps that lower no defence leave the defence of a unit no lower. -/
theorem Hardens.isTie :
  IsTie (fun step => ¬step.Softens) Hardens
  := by
  constructor
  case refl => exact Hardens.refl
  case trans => exact fun _ _ _ => Hardens.trans
  case elsewhere => exact fun _ _ => hardens_of_eq ⟨rfl, rfl, rfl⟩ rfl
  case does =>
    rintro step u v hstep ⟨-, h⟩
    cases step with
    | damage => exact takeDamage_hardens h
    | heal | healAllies =>
      obtain ⟨gain, hheal⟩ := h
      apply hardens_of_eq (heal_restats hheal).persists
      rw [(heal_ok hheal).1]
    | modifyStat => exact addBuff_hardens hstep h
    | preventActive => exact h.hardens
    | _ => exact h.1.hardens

end BoardUnit

/-! ### The strike -/

namespace Battle.Coherent

variable {b b' : Battle} {att tgt : BoardUnit} {amount : Int32} (hb : b.Coherent)
  (htgt : b.find? tgt.uid = some tgt) (h : Ruleset.strike b att tgt = .ok (b', amount))

include hb htgt h

/-- A strike lowers no defence. -/
theorem strike_hardens :
  b.Descends BoardUnit.Hardens b'
  := by
  apply hb.touches_descends BoardUnit.Hardens.isTie (fun u v hengages => hengages.endures) _
    (Ruleset.strike_touches htgt h)
  intro u v hengages
  cases hengages with
  | hurt h => apply BoardUnit.takeDamage_hardens h
  | exert h =>
    apply BoardUnit.hardens_of_eq h.endures.toPersists
    rw [h]

/-- All units stay alive in a strike, but perhaps for the target. -/
theorem strike_alive (halive : ∀ u ∈ b.units, u.isAlive) :
  ∀ u ∈ b'.units, u.uid ≠ tgt.uid → u.isAlive
  := by
  obtain ⟨hurt, hhurt, hrest⟩ := Ruleset.strike_ok h
  have hendures := (BoardUnit.Engages.hurt hhurt).endures
  have hstruck : ∀ u ∈ (b.replace hurt).units, u.uid ≠ tgt.uid → u.isAlive := by
    apply hb.forall_replace (P := fun u => u.uid ≠ tgt.uid → u.isAlive) htgt hendures.uid
    · intro hne
      exact absurd hendures.uid hne
    · intro u hu _
      apply halive u hu
  obtain ⟨-, rfl⟩ | ⟨u, modifiers, hu, rfl⟩ := hrest
  · apply hstruck
  · have hmem := mem_of_find? hu
    rw [← find?_uid hu] at hu
    apply (hb.replace htgt hendures).forall_replace (P := fun u => u.uid ≠ tgt.uid → u.isAlive)
      (v := { u with hasAttacked := true, modifiers }) hu rfl _ hstruck
    apply hstruck u hmem

end Battle.Coherent

/-! ### Eliminations -/

namespace Ruleset

variable {rules : Ruleset} {hunter : Card} {b b' : Battle} {attacker : Uid} {owner : UInt8}
  {gone v : BoardUnit} {depth : UInt32} (hhunter : rules.HasHunter hunter) (hb : b.Coherent)

include hhunter hb

/-- No defence falls in what comes of an event. -/
theorem emitWithin_hardens {n : Nat} {event : Event} (h : (rules.emitWithin n event).Leads b b') :
  b.Descends BoardUnit.Hardens b'
  := emitWithin_descends BoardUnit.Hardens.isTie (q := fun _ => True) (fun _ _ => trivial)
    (fun trigger _ => hhunter.answersWith trigger) n event b b' trivial hb h

variable (hv : b'.find? attacker = some v) (hcard : v.cardId = hunter.id)
  (howner : gone.owner ≠ v.owner)

include hv hcard howner

/-- The answer of a hunter to the elimination of an enemy, of which it is the source. -/
theorem respond_credits {n : Nat}
    (h : (respond rules (rules.emitWithin n)
      (.ofElimination .onEnemyEliminated owner gone (some attacker) depth) attacker).Leads b b') :
  ∃ u, b.find? attacker = some u ∧ u.Scores v
  := by
  have hmoves := respond_moves (fun _ _ _ => emitWithin_moves) h
  obtain ⟨u, hu, hkeeps⟩ := (hb.moves_keep hmoves).find? hb hv
  obtain ⟨rfl, hnot⟩ | ⟨u', hu', -, hblocks⟩ | ⟨_, -, hdeparted, -⟩ := respond_leads h
  · exfalso
    apply hnot v hv
    simpa [Event.concerns, Event.ofElimination] using howner
  · obtain rfl := Option.some.inj (hu.symm.trans hu')
    rw [← hkeeps.cardId, hcard] at hblocks
    change (forEach _ (rules.blocksOf hunter.id .onEnemyEliminated)).Leads b b' at hblocks
    rw [hhunter.blocksOf_hunter] at hblocks
    obtain ⟨m, ⟨r, hrun⟩, hdone⟩ := leads_forEach_cons.mp hblocks
    obtain rfl := leads_done.mp hdone
    have huid := Battle.find?_uid hu
    have hsource : RuleBlock.trophy.applies rules b u
        (.ofElimination .onEnemyEliminated owner gone (some attacker) depth) := by
      change decide (some attacker = some u.uid)
      simp [huid]
    rw [runBlock_of_applies (by rw [hu]; rfl) hsource] at hrun
    have hstat : Stat.defence ≠ .vitality := by decide
    subst huid
    have hscript : (runScript rules (rules.emitWithin n) u _
        (RuleBlock.mourning .onEnemyEliminated .defence).script).Leads b b' := ⟨r, hrun⟩
    obtain ⟨hnone, -⟩ | ⟨u', changed, hu', hchanged, hunits⟩ := mourning_leads hstat hscript
    · cases hu.symm.trans hnone
    · obtain rfl := Option.some.inj (hu.symm.trans hu')
      obtain ⟨hpersists, -, hgrown⟩ := BoardUnit.addBuff_permanent_ok hstat hchanged
      rw [Battle.find?, hunits, ← Battle.find?, hb.find?_replace hu hpersists.uid,
        if_pos rfl] at hv
      obtain rfl := Option.some.inj hv
      exact ⟨u, hu, hpersists, Int.le_of_eq (hgrown .defence).symm⟩
  · cases hdeparted

/-- A hunter on the boards is credited for the elimination of an enemy, if the event is not
nested too deep. -/
theorem emit_credits (hdepth : depth.toNat ≤ rules.settings.maxTriggerDepth.toNat)
    (h : (rules.emit (.ofElimination .onEnemyEliminated owner gone (some attacker) depth)).Leads
      b b') :
  ∃ u, b.find? attacker = some u ∧ u.Scores v
  := by
  obtain ⟨u, hu, -⟩ := (hb.moves_keep (rules.emit_moves _ _ _ h)).find? hb hv
  have hrecipient : attacker ∈ (Event.ofElimination .onEnemyEliminated owner gone (some attacker)
      depth).recipients b := by
    rw [← Battle.find?_uid hu]
    apply (recipients_spec hb _).2 u (Battle.mem_of_find? hu)
    rintro _ ⟨⟩
  obtain ⟨n, hn⟩ : ∃ n, rules.settings.maxTriggerDepth.toNat + 1 - depth.toNat = n + 1 :=
    ⟨rules.settings.maxTriggerDepth.toNat - depth.toNat, by omega⟩
  rw [emit, Event.ofElimination] at h
  dsimp only at h
  rw [hn] at h
  obtain ⟨before, after, m, m', hbefore, hanswer, hafter⟩ := forEach_leads_of_mem hrecipient h
  have hanswers {c c' : Battle} {uids : List Uid} (hc : c.Coherent)
      (hleads : (forEach (respond rules (rules.emitWithin n)
        (.ofElimination .onEnemyEliminated owner gone (some attacker) depth)) uids).Leads c c') :
      c'.Coherent ∧ c.Descends BoardUnit.Hardens c' := by
    apply responds_descend BoardUnit.Hardens.isTie (fun _ _ _ => emitWithin_moves)
      (fun _ _ _ _ hd => emitWithin_hardens hhunter hd) (hhunter.answersWith _) hc hleads
  obtain ⟨hm, hhardened⟩ := hanswers hb hbefore
  have hm' := hm.moves (respond_moves (fun _ _ _ => emitWithin_moves) hanswer)
  obtain ⟨w', hw', hlater⟩ := (hanswers hm' hafter).2.find? hm' (fun _ _ h => h.uid) hv
  rw [hlater.cardId] at hcard
  rw [hlater.owner] at howner
  obtain ⟨w, hw, hscores⟩ := respond_credits hhunter hm hw' hcard howner hanswer
  obtain ⟨x, hx, hearlier⟩ := hhardened.find? hb (fun _ _ h => h.uid) hw
  exact ⟨x, hx, hearlier.scores (hscores.hardens hlater)⟩

/-- When none but an enemy of a hunter can be without vitality, the sweep on behalf of the hunter
that takes this enemy off the boards is to its credit. -/
theorem sweep_credits (hdepth : depth.toNat ≤ rules.settings.maxTriggerDepth.toNat)
    (halive : ∀ u ∈ b.units, u.uid ≠ gone.uid → u.isAlive)
    (hthere : b.find? gone.uid = some gone) (hgone : b'.find? gone.uid = none)
    (h : (rules.sweep (some attacker) depth).Leads b b') :
  ∃ u, b.find? attacker = some u ∧ u.Scores v
  := by
  obtain ⟨r, h⟩ := h
  obtain ⟨n, hn⟩ : ∃ n, b.units.length = n + 1 := by
    apply Nat.exists_eq_add_one_of_ne_zero
    apply Nat.ne_of_gt
    apply List.length_pos_of_mem (Battle.mem_of_find? hthere)
  rw [sweep, sweepWith, hn] at h
  obtain ⟨-, rfl⟩ | ⟨_, fallen, m, m₃, hremove, hannounce, hrest⟩ :=
    sweepUpTo_leads ⟨r, h⟩
  · cases hthere.symm.trans hgone
  · obtain ⟨-, hdeparts⟩ := hb.departs hremove
    have hfound := hdeparts.found
    have huid : fallen.uid = gone.uid := by
      by_contra hother
      apply hdeparts.fallen
      apply halive fallen (Battle.mem_of_find? hfound) hother
    rw [huid, hthere] at hfound
    obtain rfl := Option.some.inj hfound
    -- Of the three events it is the last that the hunter answers to.
    obtain ⟨m₁, hgone₁, hannounce⟩ := leads_forEach_cons.mp hannounce
    obtain ⟨m₂, hgone₂, hannounce⟩ := leads_forEach_cons.mp hannounce
    obtain ⟨m₃, hgone₃, hannounce⟩ := leads_forEach_cons.mp hannounce
    cases leads_done.mp hannounce
    have hm := hdeparts.coherent hb
    have hm₁ := hm.moves (rules.emit_moves _ _ _ hgone₁)
    have hm₂ := hm₁.moves (rules.emit_moves _ _ _ hgone₂)
    have hm₃ := hm₂.moves (rules.emit_moves _ _ _ hgone₃)
    have hbefore : b.Descends BoardUnit.Hardens m₂ := by
      apply (hdeparts.descends BoardUnit.Hardens.refl).trans BoardUnit.Hardens.isTie.trans
      apply (emitWithin_hardens hhunter hm hgone₁).trans BoardUnit.Hardens.isTie.trans
      apply emitWithin_hardens hhunter hm₁ hgone₂
    have hafter : m₃.Descends BoardUnit.Hardens b' := by
      apply sweepUpTo_descends BoardUnit.Hardens.isTie rules.emit_moves _ hm₃ hrest
      intro event c c' _ hc hemit
      apply emitWithin_hardens hhunter hc hemit
    obtain ⟨w', hw', hlater⟩ := hafter.find? hm₃ (fun _ _ h => h.uid) hv
    rw [hlater.cardId] at hcard
    rw [hlater.owner] at howner
    obtain ⟨w, hw, hscores⟩ := emit_credits hhunter hm₂ hw' hcard howner hdepth hgone₃
    obtain ⟨u, hu, hearlier⟩ := hbefore.find? hb (fun _ _ h => h.uid) hw
    exact ⟨u, hu, hearlier.scores (hscores.hardens hlater)⟩

end Ruleset

/-! ### Kills -/

namespace Ruleset.Assaults

variable {rules : Ruleset} {player : UInt8} {att tgt : BoardUnit} {b struck hit b' : Battle}
  (h : rules.Assaults player att tgt b struck hit b')

include h

/-- No defence falls before the boards are swept. -/
theorem hardens {hunter : Card} (hhunter : rules.HasHunter hunter) :
  b.Descends BoardUnit.Hardens hit
  := by
  obtain ⟨m, amount, line, hstrike, rfl⟩ := h.strike
  apply (h.coherent.strike_hardens h.target hstrike).trans BoardUnit.Hardens.isTie.trans
  apply (Battle.descends_of_units BoardUnit.Hardens.refl (m.record_logs line).units_eq).trans
    BoardUnit.Hardens.isTie.trans
  apply emitWithin_hardens hhunter h.coherent_struck h.answers

/-- When nothing that answers to the hit wounds, only the target can be without vitality when the
boards are swept, and it is still there. -/
theorem leaves (hrules : rules.AnswersWith (fun step => ¬step.Wounds) .onAttackHit)
    (halive : ∀ u ∈ b.units, u.isAlive) :
  (∀ u ∈ hit.units, u.uid ≠ tgt.uid → u.isAlive) ∧ hit.has tgt.uid
  := by
  have hspares : Touches (BoardUnit.Spares fun _ => True) struck hit := by
    apply rules.emit_touches _ h.answers
    apply hrules
  have hendures : ∀ u v : BoardUnit, u.Spares (fun _ => True) v → u.Endures v :=
    fun _ _ halters => halters.alters.endures
  have hstruck := h.coherent_struck
  obtain ⟨m, amount, line, hstrike, rfl⟩ := h.strike
  constructor
  · have hkept : ∀ u ∈ hit.units, u.Bounded ∧ (u.uid ≠ tgt.uid → u.isAlive) := by
      apply hstruck.touches_forall (P := fun u => u.Bounded ∧ (u.uid ≠ tgt.uid → u.isAlive))
        hendures _ (fun _ _ => id) _ hspares
      · rintro u v halters ⟨hbounded, hlives⟩
        use (hendures u v halters).bounded hbounded
        rw [(hendures u v halters).uid]
        exact fun hother => halters.alive hbounded (hlives hother)
      · intro u hu
        use (hstruck.fit u hu).bounded
        apply h.coherent.strike_alive h.target hstrike halive u hu
    exact fun u hu => (hkept u hu).2
  · apply hstruck.touches_has hendures hspares
    apply h.coherent.touches_has (fun _ _ hengages => hengages.endures)
      (strike_touches h.target hstrike)
    apply Battle.has_of_mem (Battle.mem_of_find? h.target)

end Ruleset.Assaults

/-- Where no rule block is for the declaration of attacks, and none for a hit wounds, a hunter
that is on the boards after its attack has gained defence if the target is not. -/
theorem kill_credited {rules : Ruleset} {hunter : Card} (hhunter : rules.HasHunter hunter)
    (hdepth : 1 ≤ rules.settings.maxTriggerDepth)
    (hquiet : ∀ cardId, rules.blocksOf cardId .onAttackDeclare = [])
    (hrules : rules.AnswersWith (fun step => ¬step.Wounds) .onAttackHit)
    {b : Battle} {player : UInt8} {attacker target : Uid} {resolution : Resolution}
    (h : rules.resolve b (.attack player attacker target) = .ok resolution) {att v : BoardUnit}
    (hatt : b.find? attacker = some att) (hcard : att.cardId = hunter.id)
    (hgone : resolution.battle.find? target = none)
    (hv : resolution.battle.find? attacker = some v) :
  att.defence.toInt + 1 ≤ v.defence.toInt
  := by
  obtain ⟨hb, ⟨att', tgt, hatt', htgt, howner⟩, hattack⟩ := Ruleset.resolve_attack h
  obtain rfl := Option.some.inj (hatt.symm.trans hatt')
  obtain ⟨struck, hit, hassaults⟩ :=
    Ruleset.attackUnit_assaults hquiet hb.toCoherent hatt htgt hattack
  obtain ⟨halive, hthere⟩ := hassaults.leaves hrules hb.alive
  have hhardens := hassaults.hardens hhunter
  have huid := Battle.find?_uid htgt
  subst huid
  -- The units are known by what they keep all through the attack.
  obtain ⟨gone, hfound⟩ := Option.isSome_iff_exists.mp hthere
  have huid := Battle.find?_uid hfound
  obtain ⟨tgt', htgt', hkept⟩ := hhardens.find? hassaults.coherent (fun _ _ h => h.uid) hfound
  obtain rfl := Option.some.inj (htgt.symm.trans htgt')
  have hburies := Ruleset.attackUnit_buries hb.toCoherent hattack
  obtain ⟨att', hatt', hpersists⟩ :=
    hburies.descends.find? hb.toCoherent (fun _ _ h => h.uid) hv
  obtain rfl := Option.some.inj (hatt.symm.trans hatt')
  have henemy : gone.owner ≠ v.owner := by
    rw [hkept.owner, howner, hpersists.owner]
    apply opponentOf_ne
  rw [← huid] at hfound hgone halive
  have hself := Battle.find?_uid hatt
  subst hself
  obtain ⟨u, hu, hscores⟩ := Ruleset.sweep_credits hhunter hassaults.coherent_hit hv
    (hpersists.cardId.trans hcard) henemy (UInt32.le_iff_toNat_le.mp hdepth) halive hfound hgone
    hassaults.sweep
  obtain ⟨att', hatt', hhardened⟩ := hhardens.find? hassaults.coherent (fun _ _ h => h.uid) hu
  obtain rfl := Option.some.inj (hatt.symm.trans hatt')
  exact (hhardened.scores hscores).defence

/-- A card whose unit hunts. -/
def Card.hunter : Card :=
  { id := "mourner", name := "Hunter", abilities := [{ kind := .passive, rules := [.trophy] }] }

/-- Beside a dodger that changes no defence, the hunter is one. -/
theorem Card.hunter_hasHunter {rules : Ruleset} {script : List Step}
    (hcards : rules.catalog.cards = [.hunter, .dodger script])
    (hscript : scriptModifiesOnly (· ≠ .defence) script) :
  rules.HasHunter .hunter
  := by
  constructor
  case member => simp [hcards]
  case hunts => exact ⟨_, rfl, rfl⟩
  case others =>
    rw [hcards]
    intro card hcard hid
    obtain rfl | rfl : card = .hunter ∨ card = .dodger script := by simpa using hcard
    · cases hid rfl
    · intro ability hability block hblock
      obtain rfl := List.mem_singleton.mp hability
      obtain rfl := List.mem_singleton.mp hblock
      apply hscript

/-- The hunter of a duel kills its target, which draws a card when it is hit, and is credited. -/
theorem kill_credited_duel :
  let rules : Ruleset := { catalog := ⟨[.hunter, .dodger [.draw 1]], by decide⟩ }
  ∃ resolution, rules.resolve .duel (.attack 0 ⟨1⟩ ⟨2⟩) = .ok resolution
    ∧ ∃ att v, Battle.duel.find? ⟨1⟩ = some att ∧ resolution.battle.find? ⟨2⟩ = none
      ∧ resolution.battle.find? ⟨1⟩ = some v ∧ att.defence.toInt + 1 ≤ v.defence.toInt
  := by
  intro rules
  have hhunter : rules.HasHunter .hunter := Card.hunter_hasHunter rfl ⟨trivial, trivial⟩
  have hquiet : ∀ card ∈ rules.catalog.cards, card.blocksFor .onAttackDeclare = [] := by decide
  have hrules : rules.AnswersWith (fun step => ¬step.Wounds) .onAttackHit := by
    apply Ruleset.answersWith_of_cards
    simp [rules, Card.hunter, Card.dodger, RuleBlock.trophy, RuleBlock.mourning, scriptAll,
      Step.All, Step.Wounds]
  have hkills : (rules.resolve .duel (.attack 0 ⟨1⟩ ⟨2⟩)).toOption.any fun resolution =>
      (Battle.duel.find? ⟨1⟩).any fun att => (resolution.battle.find? ⟨1⟩).any fun v =>
        att.cardId = Card.hunter.id ∧ resolution.battle.find? ⟨2⟩ = none := by
    decide +kernel
  cases h : rules.resolve .duel (.attack 0 ⟨1⟩ ⟨2⟩) with
  | error stop =>
    rw [h] at hkills
    cases hkills
  | ok resolution =>
    rw [h] at hkills
    simp only [Except.toOption, Option.any_some] at hkills
    obtain ⟨att, hatt, hkills⟩ := (Option.any_eq_true _ _).mp hkills
    obtain ⟨v, hv, hkills⟩ := (Option.any_eq_true _ _).mp hkills
    obtain ⟨hcard, hgone⟩ := of_decide_eq_true hkills
    exact ⟨resolution, rfl, att, v, hatt, hgone, hv, kill_credited hhunter (by decide)
      (Ruleset.blocksOf_eq_nil hquiet) hrules h hatt hcard hgone hv⟩

/-- The target of the hunter strikes back before it is taken off the boards.  This is then on its
own behalf, and the hunter is not credited. -/
theorem kill_uncredited_duel :
  let rules : Ruleset := { catalog := ⟨[.hunter, .dodger [.damage .source 1]], by decide⟩ }
  rules.HasHunter .hunter ∧ 12 ≤ rules.settings.maxTriggerDepth
    ∧ (∀ cardId, rules.blocksOf cardId .onAttackDeclare = [])
    ∧ Battle.duel.corruption? = none ∧ (∀ u ∈ Battle.duel.units, u.buffs = [])
    ∧ ∃ resolution, rules.resolve .duel (.attack 0 ⟨1⟩ ⟨2⟩) = .ok resolution
      ∧ ∃ att tgt v, Battle.duel.find? ⟨1⟩ = some att ∧ Battle.duel.find? ⟨2⟩ = some tgt
        ∧ att.cardId = Card.hunter.id ∧ tgt.vitality ≤ att.damageTo tgt
        ∧ resolution.battle.find? ⟨2⟩ = none ∧ resolution.battle.find? ⟨1⟩ = some v
        ∧ ¬att.defence.toInt + 1 ≤ v.defence.toInt
  := by
  intro rules
  have hhunter : rules.HasHunter .hunter := Card.hunter_hasHunter rfl ⟨trivial, trivial⟩
  have hquiet : ∀ card ∈ rules.catalog.cards, card.blocksFor .onAttackDeclare = [] := by decide
  have hkills : (rules.resolve .duel (.attack 0 ⟨1⟩ ⟨2⟩)).toOption.any fun resolution =>
      (Battle.duel.find? ⟨1⟩).any fun att => (Battle.duel.find? ⟨2⟩).any fun tgt =>
        (resolution.battle.find? ⟨1⟩).any fun v =>
          att.cardId = Card.hunter.id ∧ tgt.vitality ≤ att.damageTo tgt
            ∧ resolution.battle.find? ⟨2⟩ = none ∧ ¬att.defence.toInt + 1 ≤ v.defence.toInt := by
    decide +kernel
  refine ⟨hhunter, by decide, Ruleset.blocksOf_eq_nil hquiet, by decide, by decide, ?_⟩
  cases h : rules.resolve .duel (.attack 0 ⟨1⟩ ⟨2⟩) with
  | error stop =>
    rw [h] at hkills
    cases hkills
  | ok resolution =>
    rw [h] at hkills
    simp only [Except.toOption, Option.any_some] at hkills
    obtain ⟨att, hatt, hkills⟩ := (Option.any_eq_true _ _).mp hkills
    obtain ⟨tgt, htgt, hkills⟩ := (Option.any_eq_true _ _).mp hkills
    obtain ⟨v, hv, hkills⟩ := (Option.any_eq_true _ _).mp hkills
    obtain ⟨hcard, hlethal, hgone, hsame⟩ := of_decide_eq_true hkills
    exact ⟨resolution, rfl, att, tgt, v, hatt, htgt, hcard, hlethal, hgone, hv, hsame⟩

end CardBattle
