import CardBattle.Proofs.Action.Overflow
import CardBattle.Proofs.Action.Readiness
import CardBattle.Proofs.Battle.InPlace
import CardBattle.Proofs.BoardUnit.Auras

/-!
# What the end of a turn leaves

The end of a turn first gives all units rest (`BoardUnit.Rests`) and forgets which abilities
were used; then the units that have lost their last vitality with a buff leave the boards, the
turn passes to the opponent, and events and a refresh follow.  None of what follows reaches what
was reset, so that it is found at the end, however many scripts have run (`endTurn_handsOver`).
Buffs that end with the cycle are all gone at first.  They can come again only by the scripts,
and if no script hands one out, there are none (`endTurn_freesCycle`).
-/

namespace CardBattle

open Change

namespace BoardUnit

/-- The attack modifiers that a unit takes along to the next turn. -/
def standing (u : BoardUnit) : List AttackModifier :=
  u.modifiers.filter fun m => !m.consumed && !m.thisTurnOnly

/-- The unit has rested for a new turn: it has not attacked, it is not new, its cooldowns are one
turn shorter, and its attack modifiers are those it takes along, and perhaps some behind them. -/
structure Rests (u v : BoardUnit) : Prop extends Persists u v where
  hasAttacked : v.hasAttacked = false
  isNew : v.isNew = false
  cooldowns : ∀ slot, (v.cooldowns.find? slot).map UInt32.toNat
    = (u.cooldowns.find? slot).map fun turns => turns.toNat - 1
  usesLeft : v.usesLeft = u.usesLeft
  modifiers : u.standing <+: v.modifiers

/-- Every buff of the unit that ends with the cycle is one that it had before. -/
def GainsNoCycleBuff (u v : BoardUnit) : Prop :=
  ∀ buff ∈ v.buffs, buff.expiry = .endOfCycle → buff ∈ u.buffs

variable {u v w : BoardUnit}

/-- At the end of a turn a unit has just the attack modifiers that it takes along. -/
theorem endCycle_standing (h : u.endCycle = .ok v) :
  v.modifiers = u.standing
  := by
  obtain ⟨w, hw, h⟩ := bind_eq_ok.mp h
  obtain rfl := pure_eq_ok.mp h
  have hmodifiers : w.modifiers = u.modifiers := by rw [expireBuffs_restats hw]
  rw [standing, hmodifiers]

/-- The end of a turn gives a unit rest. -/
theorem endCycle_rests (h : u.endCycle = .ok v) :
  u.Rests v
  := by
  have hendures := endCycle_endures h
  have hstanding := endCycle_standing h
  obtain ⟨w, hw, h⟩ := bind_eq_ok.mp h
  obtain rfl := pure_eq_ok.mp h
  have hkeeps := (expireBuffs_restats hw).keeps
  constructor
  case toPersists => exact hendures.toPersists
  case hasAttacked => exact hkeeps.hasAttacked
  case isNew => exact hkeeps.isNew
  case cooldowns =>
    intro slot
    dsimp only
    rw [hkeeps.cooldowns, SortedMap.find?_mapValues, Option.map_map]
    congr 1
    funext turns
    apply toNat_coolDown
  case usesLeft => exact hkeeps.usesLeft
  case modifiers => exact hstanding ▸ List.prefix_rfl

/-- A unit that has rested and keeps account of its turn after that has rested. -/
theorem Rests.keeps (h : u.Rests v) (h' : v.Keeps w) :
  u.Rests w
  := by
  constructor
  · exact h.toPersists.trans h'.toPersists
  · rw [h'.hasAttacked, h.hasAttacked]
  · rw [h'.isNew, h.isNew]
  · rw [h'.cooldowns]
    exact h.cooldowns
  · rw [h'.usesLeft, h.usesLeft]
  · exact h.modifiers.trans h'.modifiers

theorem gainsNoCycleBuff_of_eq (h : v.buffs = u.buffs) :
  u.GainsNoCycleBuff v
  := by
  intro buff hbuff _
  rwa [h] at hbuff

/-- Nothing that happens to a unit in a cascade gives it a buff that ends with the cycle, if no
step does. -/
theorem GainsNoCycleBuff.isBond :
  IsBond (fun _ duration => duration ≠ .endOfCycle) GainsNoCycleBuff
  := by
  constructor
  case refl => exact fun _ => gainsNoCycleBuff_of_eq rfl
  case trans =>
    intro u v w huv hvw buff hbuff hexpiry
    exact huv buff (hvw buff hbuff hexpiry) hexpiry
  case elsewhere => exact fun _ _ => gainsNoCycleBuff_of_eq rfl
  case alters => exact fun _ _ h => gainsNoCycleBuff_of_eq h.buffs_eq
  case buff =>
    intro u v stat delta duration hduration h buff hbuff hexpiry
    obtain ⟨w, hw, rfl⟩ := addBuff_ok h
    dsimp only at hbuff
    rw [modifyStat_buffs hw] at hbuff
    split at hbuff
    · exact hbuff
    · rcases List.mem_append.mp hbuff with hold | hnew
      · exact hold
      · obtain rfl := List.mem_singleton.mp hnew
        exact absurd hexpiry hduration

theorem expireBuffs_gainsNoCycleBuff {expiry : Duration} (h : u.expireBuffs expiry = .ok v) :
  u.GainsNoCycleBuff v
  := by
  intro buff hbuff _
  rw [expireBuffs_buffs h] at hbuff
  exact List.mem_of_mem_filter hbuff

/-- At the end of a turn no buff that ends with the cycle is left. -/
theorem endCycle_freesCycle (h : u.endCycle = .ok v) {buff : Buff} (hbuff : buff ∈ v.buffs) :
  buff.expiry ≠ .endOfCycle
  := by
  obtain ⟨w, hw, h⟩ := bind_eq_ok.mp h
  obtain rfl := pure_eq_ok.mp h
  dsimp only at hbuff
  rw [expireBuffs_buffs hw] at hbuff
  exact of_decide_eq_true (List.mem_filter.mp hbuff).2

end BoardUnit

/-- The triggers whose rule blocks may run at the end of a turn. -/
def Trigger.turnEnds : List Trigger :=
  eliminations ++ [.turnStartSelf, .ruleMod, .aura]

/-- No rule block that may run at the end of a turn hands out a buff that ends with the cycle. -/
def Ruleset.SparesCycles (rules : Ruleset) : Prop :=
  ∀ card ∈ rules.catalog.cards, ∀ ability ∈ card.abilities, ∀ block ∈ ability.rules,
    block.trigger ∈ Trigger.turnEnds →
      scriptChangesOnly (fun _ duration => duration ≠ .endOfCycle) block.script

/-- The turn has passed to the opponent: nobody has attacked in it, no ability was used in it,
and all units that are still there have rested. -/
structure Battle.HandsOver (b b' : Battle) : Prop where
  turn : b'.turn.toNat = b.turn.toNat + 1
  activePlayer : b'.activePlayer = opponentOf b.activePlayer
  firstAttacker : b'.firstAttacker = none
  used0 : b'.side0.used = ∅
  used1 : b'.side1.used = ∅
  units : ∀ v ∈ b'.units, ∃ u, b.find? v.uid = some u ∧ u.Rests v

namespace Ruleset

variable {rules : Ruleset} {b b' : Battle}

/-- The end of a turn hands the battle over, whatever the scripts do that run in it. -/
theorem endTurn_handsOver (hb : b.Coherent) (h : rules.endTurn.Leads b b') :
  b.HandsOver b'
  := by
  obtain ⟨m₁, m₂, m₃, ⟨hchange, hm₁⟩, ⟨hsweep, -⟩, ⟨hpasses, hm₃⟩, hrest⟩ := endTurn_coherent hb h
  have hframe := (Battle.changeAll_eq_ok.mp hchange).frame
  have hswept := hm₁.moves_keep (rules.sweep_moves hsweep)
  have hkept := emitAndRefresh_keeps hm₃ hrest
  constructor
  case turn => rw [hkept.turn, Word.toNat_of_next hpasses.turn, hswept.turn, hframe]
  case activePlayer => rw [hkept.activePlayer, hpasses.activePlayer, hswept.activePlayer, hframe]
  case firstAttacker => rw [hkept.firstAttacker, hpasses.firstAttacker]
  case used0 => rw [hkept.side0.used, hpasses.side0, hswept.side0.used, hframe]
  case used1 => rw [hkept.side1.used, hpasses.side1, hswept.side1.used, hframe]
  case units =>
    intro v hv
    obtain ⟨u₃, hu₃, hv⟩ := hkept.units v hv
    rw [hpasses.units] at hu₃
    obtain ⟨u₁, hu₁, hu₃⟩ := hswept.units u₃ hu₃
    obtain ⟨u, hu, hended⟩ := (Battle.changeAll_eq_ok.mp hchange).exists_unit hu₁
    have hrests := ((BoardUnit.endCycle_rests hended).keeps hu₃).keeps hv
    refine ⟨u, ?_, hrests⟩
    rw [hrests.uid]
    exact Battle.find?_of_mem hb.distinct hu

/-- The end of a turn leaves no buff that ends with the cycle, if no rule block that runs in it
hands one out. -/
theorem endTurn_freesCycle (hrules : rules.SparesCycles) (hb : b.Coherent)
    (h : rules.endTurn.Leads b b') :
  ∀ v ∈ b'.units, v.expiring .endOfCycle = []
  := by
  have hanswers : ∀ trigger, trigger ∈ Trigger.turnEnds →
      rules.AnswersWith (Step.ChangesOnly fun _ duration => duration ≠ .endOfCycle) trigger := by
    intro trigger htrigger
    apply answersWith_of_cards
    rintro card hcard ability hability block hblock rfl
    exact scriptChangesOnly_all _ (hrules card hcard ability hability block hblock htrigger)
  obtain ⟨m, hchange, hdescends⟩ := endTurn_descends BoardUnit.GainsNoCycleBuff.isBond.isTie
    (fun trigger => List.mem_append_left _) hanswers
    (fun _ _ => BoardUnit.expireBuffs_gainsNoCycleBuff)
    (fun lacks u => BoardUnit.gainsNoCycleBuff_of_eq (by rw [BoardUnit.keepLack_eq]))
    (by decide) (by decide) (by decide) hb h
  intro v hv
  obtain ⟨w, hw, hgains⟩ := hdescends v hv
  obtain ⟨u, -, hended⟩ := (Battle.changeAll_eq_ok.mp hchange).exists_unit hw
  apply List.filter_eq_nil_iff.mpr
  intro buff hbuff hexpiry
  have hexpiry := of_decide_eq_true hexpiry
  exact BoardUnit.endCycle_freesCycle hended (hgains buff hbuff hexpiry) hexpiry

/-- The end of a turn is always permitted, whoever asks for it. -/
theorem permit_endTurn (hb : b.corruption? = none) (player : UInt8) :
  rules.permit b (.endTurn player) = .ok .endTurn
  := by
  rw [permit, checkIntegrity, hb]
  rfl

end Ruleset

/-- The end of a turn is accepted from anyone, and it fails only by overflow.  It hands the
battle over, whatever the scripts do that run in it; and if no rule block that may run in it
hands out a buff that ends with the cycle, no unit has one afterwards. -/
theorem endTurn_resolves {rules : Ruleset} {b : Battle} (hb : b.corruption? = none)
    (player : UInt8) :
  rules.validate b (.endTurn player) = .ok ()
  ∧ FailsOnly Stop.IsOverflow (rules.resolve b (.endTurn player))
  ∧ ∀ resolution, rules.resolve b (.endTurn player) = .ok resolution →
    b.HandsOver resolution.battle
    ∧ (rules.SparesCycles → ∀ v ∈ resolution.battle.units, v.expiring .endOfCycle = [])
  := by
  have hpermit : rules.permit b (.endTurn player) = .ok .endTurn :=
    Ruleset.permit_endTurn hb player
  have hsound := Battle.corruption?_eq_none_iff.mp hb
  refine ⟨?_, ?_, ?_⟩
  · rw [Ruleset.validate, hpermit]
    rfl
  · refine failsOnly_bind_of_ok (lift_rejection_eq_ok.mpr hpermit) ?_
    apply (Ruleset.carryOut_failsOnly hsound (Ruleset.permit_ok hpermit).2).bind
    rintro ⟨battle, report⟩ _
    apply failsOnly_ok
  · intro resolution h
    obtain ⟨permit, report, hpermit', hcarry⟩ := Ruleset.resolve_ok h
    obtain rfl := Except.ok.inj (hpermit.symm.trans hpermit')
    have hleads : rules.endTurn.Leads b resolution.battle := ⟨report, lift_fault_eq_ok.mp hcarry⟩
    use Ruleset.endTurn_handsOver hsound.toCoherent hleads
    intro hrules
    exact Ruleset.endTurn_freesCycle hrules hsound.toCoherent hleads

/-- A unit card that gets ready to attack at the beginning of its turn, and has an aura for
itself. -/
def Card.lookout : Card :=
  { id := "lookout"
    name := "Lookout"
    stats := { vitality := 3, impact := 2 }
    abilities := [{
      kind := .passive
      rules := [
        { trigger := .turnStartSelf, script := [.boostAttack .self { impactBonus := 2 }] },
        { trigger := .aura, script := [.modifyStat .self .defence 1 .aura] }] }] }

/-- A battle in which a lookout has attacked and used an ability, with one of two boosts, and has
more impact for the rest of the cycle. -/
def Battle.watch : Battle :=
  { Battle.start 1 with
    side1 := ({ board := ⟨[some {
      BoardUnit.ofCard ⟨1⟩ 1 ⟨.front, 0⟩ .lookout with
      impact := 5
      cooldowns := .ofList [(1, 3), (2, 0)]
      usesLeft := .ofList [(1, 4)]
      modifiers := [{ consumed := true }, { impactBonus := 7 }]
      buffs := [⟨.impact, 3, .endOfCycle⟩]
      hasAttacked := true }, none, none, none, none, none], rfl⟩ } : Side).markUsed ⟨⟨1⟩, 1⟩
    firstAttacker := some ⟨1⟩
    uids := ⟨2⟩ }

/-- The turn passes to the lookout, which takes one boost along and gets another one. -/
theorem endTurn_resolves_watch :
  let rules : Ruleset := { catalog := ⟨[.lookout], by decide⟩ }
  Battle.watch.corruption? = none ∧ rules.validate .watch (.endTurn 7) = .ok ()
    ∧ ∃ resolution, rules.resolve .watch (.endTurn 7) = .ok resolution
      ∧ (resolution.battle.units.map fun v => v.modifiers.map fun m => m.impactBonus) = [[7, 2]]
      ∧ Battle.watch.HandsOver resolution.battle
      ∧ ∀ v ∈ resolution.battle.units, v.expiring .endOfCycle = []
  := by
  intro rules
  have hb : Battle.watch.corruption? = none := by decide
  have hrules : rules.SparesCycles := by
    intro card hcard ability hability block hblock _
    obtain rfl := List.mem_singleton.mp hcard
    obtain rfl := List.mem_singleton.mp hability
    obtain rfl | rfl := List.mem_pair.mp hblock
    · exact ⟨trivial, trivial⟩
    · exact ⟨(by decide : Duration.aura ≠ .endOfCycle), trivial⟩
  have hboosts : (rules.resolve .watch (.endTurn 7)).toOption.any fun resolution =>
      (resolution.battle.units.map fun v => v.modifiers.map fun m => m.impactBonus) = [[7, 2]] := by
    decide +kernel
  cases hresolve : rules.resolve .watch (.endTurn 7) with
  | error stop =>
    rw [hresolve] at hboosts
    cases hboosts
  | ok resolution =>
    rw [hresolve] at hboosts
    obtain ⟨haccepted, -, hresult⟩ := endTurn_resolves hb 7
    obtain ⟨hhands, hfree⟩ := hresult resolution hresolve
    exact ⟨hb, haccepted, resolution, rfl, of_decide_eq_true hboosts, hhands, hfree hrules⟩

end CardBattle
