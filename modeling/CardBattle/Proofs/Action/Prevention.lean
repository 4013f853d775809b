import CardBattle.Proofs.Action.Modifiers
import CardBattle.Proofs.Action.Overflow
import CardBattle.Proofs.Action.Pacing

/-!
# The prevention of active abilities

A step can prevent the active abilities of a unit up to a turn.  The unit keeps the number of
this turn, and nothing that is done to a unit changes it but another such step
(`BoardUnit.Reminded.isTie`).  The turns of a run are counted by the actions that end them
(`Run.turn`).  Hence, if such steps are run on activations only, the abilities are prevented for
the turn that is going on and for just as many after it as the step says
(`prevention_lasts`).
-/

namespace CardBattle

open Change

/-- The step prevents active abilities. -/
def Step.Prevents : Step → Prop
  | .preventActive _ _ => True
  | _ => False

/-- No rule block of the card but those for an activation has a step, at any nesting, that
prevents active abilities. -/
def Card.PreventsWhenActivated (card : Card) : Prop :=
  ∀ ability ∈ card.abilities, ∀ block ∈ ability.rules, block.trigger ≠ .activate →
    scriptAll (fun step => ¬step.Prevents) block.script

/-- The rejection is for active abilities that are prevented. -/
def Rejection.IsPrevention : Rejection → Prop
  | .abilityPrevented _ _ => True
  | _ => False

/-! ### What units keep -/

namespace BoardUnit

/-- The unit is still the same, and its active abilities are prevented up to the same turn. -/
structure Reminded (u v : BoardUnit) : Prop extends Persists u v where
  preventedUntil : v.preventedUntil = u.preventedUntil

variable {u v w : BoardUnit}

theorem Reminded.refl (u : BoardUnit) :
  u.Reminded u
  := ⟨.refl u, rfl⟩

theorem Reminded.trans (huv : u.Reminded v) (hvw : v.Reminded w) :
  u.Reminded w
  := ⟨huv.toPersists.trans hvw.toPersists, hvw.preventedUntil.trans huv.preventedUntil⟩

theorem Restats.reminded (h : u.Restats v) :
  u.Reminded v
  := by
  rw [h]
  exact ⟨⟨rfl, rfl, rfl⟩, rfl⟩

theorem Engages.reminded (h : u.Engages v) :
  u.Reminded v
  := by
  cases h with
  | hurt h => apply (takeDamage_restats h).reminded
  | exert h =>
    rw [h]
    exact ⟨⟨rfl, rfl, rfl⟩, rfl⟩

theorem keepLack_reminded (lacks : Lacks) (u : BoardUnit) :
  u.Reminded (u.keepLack lacks)
  := by
  rw [keepLack_eq]
  exact ⟨⟨rfl, rfl, rfl⟩, rfl⟩

theorem endCycle_reminded (h : u.endCycle = .ok v) :
  u.Reminded v
  := by
  use (endCycle_endures h).toPersists
  obtain ⟨w, hw, h⟩ := bind_eq_ok.mp h
  obtain rfl := pure_eq_ok.mp h
  exact (expireBuffs_restats hw).reminded.preventedUntil

/-- Steps that prevent no active abilities leave the unit with the turn up to which its own are
prevented. -/
theorem Reminded.isTie :
  IsTie (fun step => ¬step.Prevents) Reminded
  := by
  constructor
  case refl => exact Reminded.refl
  case trans => exact fun _ _ _ => Reminded.trans
  case elsewhere => exact fun _ _ => ⟨⟨rfl, rfl, rfl⟩, rfl⟩
  case does =>
    rintro step u v hstep ⟨hundergoes, h⟩
    cases step with
    | damage => exact (takeDamage_restats h).reminded
    | heal | healAllies =>
      obtain ⟨gain, hheal⟩ := h
      exact (heal_restats hheal).reminded
    | modifyStat => exact (addBuff_restats h).reminded
    | preventActive => exact absurd trivial hstep
    | _ => exact ⟨hundergoes.alters.endures.toPersists, h.2⟩

/-- Active abilities are prevented in the turns before the one up to which they are. -/
theorem isPrevented_iff {free turn : UInt32} (h : u.preventedUntil = some free) :
  u.isPrevented turn ↔ turn.toNat < free.toNat
  := by
  rw [isPrevented, h, Option.any_some, decide_eq_true_eq, UInt32.lt_iff_toNat_lt]

end BoardUnit

open BoardUnit (Reminded)

/-! ### The count of turns -/

theorem Battle.Uses.turn {b b' : Battle} {player : UInt8} {uid : Uid} {slot : UInt8}
    {ability : Ability} (h : b.Uses player uid slot ability b') :
  b'.turn = b.turn
  := by
  obtain ⟨side, m, -, rfl, ⟨-, rfl⟩ | ⟨u, -, rfl⟩⟩ := h
  · rw [Battle.setSide_turn]
  · rw [Battle.replace_turn, Battle.setSide_turn]

theorem Battle.Deploys.turn {b b' : Battle} {player : UInt8} {handIndex : UInt64} {cell : Cell}
    {card : Card} (h : b.Deploys player handIndex cell card b') :
  b'.turn = b.turn
  := by
  obtain ⟨next, side, i, board, line, -, -, -, -, -, rfl⟩ := h
  exact Battle.setSide_turn _ _ _

theorem Ruleset.strike_turn {b b' : Battle} {attacker target : BoardUnit} {amount : Int32}
    (h : strike b attacker target = .ok (b', amount)) :
  b'.turn = b.turn
  := by
  obtain ⟨hurt, -, ⟨-, rfl⟩ | ⟨u, modifiers, -, rfl⟩⟩ := strike_ok h
  · rw [Battle.replace_turn]
  · rw [Battle.replace_turn, Battle.replace_turn]

namespace Ruleset

variable {rules : Ruleset} {b b' : Battle} {action : Action} {resolution : Resolution}
  {steps : List (Battle × Action)}

/-- An accepted action adds one to the count of turns if it ends the turn. -/
theorem resolve_turn (h : rules.resolve b action = .ok resolution) :
  resolution.battle.turn.toNat = b.turn.toNat + if action.endsTurn then 1 else 0
  := by
  obtain ⟨permit, report, hpermit, hcarry⟩ := resolve_ok h
  have hgrants := permit_grants hpermit
  have hb := (Battle.corruption?_eq_none_iff.mp (permit_ok hpermit).1).toCoherent
  cases permit with
  | playUnit player handIndex cell card =>
    obtain rfl := hgrants
    obtain ⟨m, hdeploys, hkeeps⟩ := playUnit_keeps hb hcarry
    rw [hkeeps.turn, hdeploys.turn]
    rfl
  | move player uid cell =>
    obtain rfl := hgrants
    rw [(moveUnit_keeps hb hcarry).turn]
    rfl
  | attack player attacker target =>
    obtain rfl := hgrants
    obtain ⟨m, -, -, hdeclared, ⟨-, hkeeps⟩ | ⟨_, _, m₁, _, -, -, hstrike, hkeeps⟩⟩ :=
      attackUnit_keeps hb ⟨report, lift_fault_eq_ok.mp hcarry⟩
    · rw [hkeeps.turn, hdeclared.turn]
      rfl
    · rw [hkeeps.turn, strike_turn hstrike, hdeclared.turn]
      rfl
  | activate player uid slot target ability =>
    obtain rfl := hgrants
    obtain ⟨m, hkeeps, -, huses⟩ := activate_keeps hb hcarry
    rw [huses.turn, hkeeps.turn]
    rfl
  | endTurn =>
    obtain ⟨player, rfl⟩ := hgrants
    exact (endTurn_handsOver hb ⟨report, lift_fault_eq_ok.mp hcarry⟩).turn

/-- The turns of a run are counted. -/
theorem Run.turn (h : rules.Run b steps b') :
  b'.turn.toNat = b.turn.toNat + steps.countP (·.2.endsTurn)
  := by
  induction h with
  | nil => rfl
  | @cons b b' action resolution steps hstep hrest ih =>
    rw [ih, resolve_turn hstep, List.countP_cons]
    dsimp only
    omega

/-- A run leaves a sound battle sound. -/
theorem Run.sound (h : rules.Run b steps b') (hb : b.Sound) :
  b'.Sound
  := by
  induction h with
  | nil => exact hb
  | cons hstep _ ih => exact ih (resolve_sound hstep)

/-! ### Runs without activations -/

section

variable (hrules : ∀ card ∈ rules.catalog.cards, card.PreventsWhenActivated) {uid : Uid}
  {u v : BoardUnit}

include hrules

/-- An action that activates no ability leaves the units with the turns up to which their
abilities are prevented. -/
theorem resolve_reminds (haction : ¬action.isActivation)
    (h : rules.resolve b action = .ok resolution) (hu : b.find? uid = some u)
    (hv : resolution.battle.find? uid = some v) :
  u.Reminded v
  := by
  have hanswers : ∀ trigger, trigger ≠ .activate →
      rules.AnswersWith (fun step => ¬step.Prevents) trigger := by
    intro trigger htrigger
    apply answersWith_of_cards
    intro card hcard ability hability block hblock hof
    apply hrules card hcard ability hability block hblock
    rw [hof]
    exact htrigger
  obtain ⟨permit, report, hpermit, -⟩ := resolve_ok h
  have hb := (Battle.corruption?_eq_none_iff.mp (permit_ok hpermit).1).toCoherent
  have hissued : b.uids.hasIssued v.uid := by
    rw [Battle.find?_uid hv]
    exact resolve_issued h hu
  obtain ⟨w, hw, hreminded⟩ := resolve_descends Reminded.isTie
    (fun _ _ hreminded => hreminded.uid) hanswers
    (fun _ _ hexpire => (BoardUnit.expireBuffs_restats hexpire).reminded)
    BoardUnit.keepLack_reminded (fun _ _ => BoardUnit.Engages.reminded)
    (fun _ _ => BoardUnit.endCycle_reminded) haction h v (Battle.mem_of_find? hv) hissued
  have hfind := Battle.find?_of_mem hb.distinct hw
  rw [← hreminded.uid, Battle.find?_uid hv] at hfind
  obtain rfl := Option.some.inj (hu.symm.trans hfind)
  exact hreminded

/-- Through a run without activations the units keep the turns up to which their abilities are
prevented. -/
theorem Run.reminds (h : rules.Run b steps b') (hsteps : ∀ step ∈ steps, ¬step.2.isActivation)
    (hu : b.find? uid = some u) (hv : b'.find? uid = some v) :
  u.Reminded v
  := by
  induction h generalizing u with
  | nil =>
    obtain rfl := Option.some.inj (hu.symm.trans hv)
    exact .refl u
  | cons hstep hrest ih =>
    obtain ⟨haction, hsteps⟩ := List.forall_mem_cons.mp hsteps
    obtain ⟨w, hw⟩ := hrest.exists_find? hstep hu hv
    exact (resolve_reminds hrules haction hstep hu hw).trans (ih hsteps hw hv)

end

/-! ### The check of an activation -/

theorem failsOnly_error {S : Rejection → Prop} {r : Rejection} (h : S r) {α : Type} :
  FailsOnly S (.error r : Except Rejection α)
  := by
  intro e he
  obtain rfl := Except.error.inj he
  exact h

theorem unless_failsOnly {S : Rejection → Prop} {met : Prop} [Decidable met] {r : Rejection}
    (h : ¬met → S r) :
  FailsOnly S (Rejection.unless met r)
  := by
  rw [Rejection.unless]
  split
  · apply failsOnly_ok
  · next hmet => exact failsOnly_error (h hmet)

section

variable {player : UInt8} {uid : Uid} {slot : UInt8} {target : Option Uid} {ability : Ability}
  {u : BoardUnit} (hu : b.find? uid = some u)

include hu

/-- An active ability that is prevented is not permitted, whatever it is aimed at. -/
theorem permit_of_prevented (hb : b.corruption? = none)
    (hability : rules.abilityOf? b uid slot = some ability) (hprevented : u.isPrevented b.turn) :
  rules.permit b (.activate u.owner uid slot target)
    = .error (.abilityPrevented uid (u.preventedUntil.getD b.turn))
  := by
  rw [abilityOf?, hu, Option.bind_some] at hability
  have hready : checkReady b u slot
      = .error (.abilityPrevented uid (u.preventedUntil.getD b.turn)) := by
    rw [checkReady, Rejection.unless, if_neg (not_not.mpr hprevented), Battle.find?_uid hu]
    rfl
  have hcheck : rules.checkActivation b u.owner uid slot target
      = .error (.abilityPrevented uid (u.preventedUntil.getD b.turn)) := by
    rw [checkActivation, Battle.ownedUnit_eq_ok.mpr ⟨hu, rfl⟩]
    simp only [bind, Except.bind, hability, hready]
  rw [permit, checkIntegrity, hb]
  simp only [bind, Except.bind, hcheck]

/-- The check of an activation does not fail for prevention if the abilities of the unit are
free. -/
theorem checkActivation_failsOnly (hfree : ¬u.isPrevented b.turn) :
  FailsOnly (fun r => ¬r.IsPrevention) (rules.checkActivation b player uid slot target)
  := by
  have howned : FailsOnly (fun r => ¬r.IsPrevention) (b.ownedUnit player uid) := by
    rw [Battle.ownedUnit, hu]
    dsimp only
    split
    · apply failsOnly_ok
    · exact failsOnly_error id
  apply howned.bind
  intro w hw
  obtain rfl := Option.some.inj (hu.symm.trans (Battle.ownedUnit_eq_ok.mp hw).1)
  split
  · exact failsOnly_error id
  · next ability _ =>
    have hready : FailsOnly (fun r => ¬r.IsPrevention) (checkReady b u slot) := by
      rw [checkReady]
      apply FailsOnly.bind
      · exact unless_failsOnly fun hprevented => absurd hfree hprevented
      · intro _ _
        exact (unless_failsOnly fun _ => id).bind fun _ _ => unless_failsOnly fun _ => id
    have hside : FailsOnly (fun r => ¬r.IsPrevention) (b.sideOf player) := by
      rw [Battle.sideOf]
      split
      · apply failsOnly_ok
      · exact failsOnly_error id
    have htarget : FailsOnly (fun r => ¬r.IsPrevention)
        (rules.checkTarget b uid slot target ability) := by
      cases target with
      | none => exact unless_failsOnly fun _ => id
      | some _ => exact unless_failsOnly fun _ => id
    apply hready.bind
    intro _ _
    apply hside.bind
    intro side _
    have hcost : FailsOnly (fun r => ¬r.IsPrevention) (checkCost side ⟨uid, slot⟩ ability) :=
      (unless_failsOnly fun _ => id).bind fun _ _ => unless_failsOnly fun _ => id
    apply hcost.bind
    intro _ _
    exact htarget.bind fun _ _ => failsOnly_ok _

/-- Nor is an activation rejected for prevention then. -/
theorem permit_failsOnly (hfree : ¬u.isPrevented b.turn) :
  FailsOnly (fun r => ¬r.IsPrevention) (rules.permit b (.activate player uid slot target))
  := by
  have hintegrity : FailsOnly (fun r => ¬r.IsPrevention) (checkIntegrity b) := by
    rw [checkIntegrity]
    split
    · apply failsOnly_ok
    · exact failsOnly_error id
  apply hintegrity.bind
  intro _ _
  exact (checkActivation_failsOnly hu hfree).bind fun _ _ => failsOnly_ok _

end

/-- What an action is rejected for is what its check has found. -/
theorem permit_of_rejected {rejection : Rejection}
    (h : rules.resolve b action = .error (.rejected rejection)) :
  rules.permit b action = .error rejection
  := by
  cases hpermit : rules.permit b action with
  | error cause =>
    rw [resolve, hpermit] at h
    cases h
    rfl
  | ok permit =>
    obtain ⟨hintegrity, hchecked⟩ := permit_ok hpermit
    have hcarry := carryOut_failsOnly (Battle.corruption?_eq_none_iff.mp hintegrity) hchecked
    have hfails : FailsOnly Stop.IsOverflow (rules.resolve b action) :=
      failsOnly_bind_of_ok (lift_rejection_eq_ok.mpr hpermit)
        (hcarry.bind fun _ _ => failsOnly_ok _)
    obtain ⟨operation, hoverflow⟩ := hfails _ h
    cases hoverflow

/-- The turn in which the abilities are free again is as many turns after the next one as the
step says. -/
theorem stepPreventActive_eq (rules : Ruleset) (u : BoardUnit) {cycles : UInt32}
    (hturn : b.turn.toNat + cycles.toNat + 1 < UInt32.size) :
  ∃ free line, free.toNat = b.turn.toNat + cycles.toNat + 1
    ∧ stepPreventActive rules cycles u b
      = replaceWith { u with preventedUntil := some free } line b
  := by
  refine ⟨_, _, ?_, rfl⟩
  rw [Word.toNat_nearestUnsigned, Word.toNat_nearestUnsigned]
  omega

/-- A script of the one step prevents the active abilities of a unit up to the turn in which
they are free again. -/
theorem run_preventActive (hb : b.Sound) {actor u : BoardUnit} {event : Event} {ref : UnitRef}
    {cycles : UInt32} (hu : ref.resolve? b actor event = some u)
    (hturn : b.turn.toNat + cycles.toNat + 1 < UInt32.size) :
  ∃ s report free, rules.run actor event [.preventActive ref cycles] b = .ok (s, report)
    ∧ s.Sound ∧ s.turn = b.turn ∧ free.toNat = b.turn.toNat + cycles.toNat + 1
    ∧ s.find? u.uid = some { u with preventedUntil := some free }
  := by
  obtain ⟨free, line, hfree, hstep⟩ := stepPreventActive_eq rules u hturn
  let v : BoardUnit := { u with preventedUntil := some free }
  have hleads : (rules.run actor event [.preventActive ref cycles]).Leads b
      ((b.replace v).record line) := by
    rw [run_single, runStep]
    apply onUnit_leads.mpr
    right
    use u, hu
    rw [Leads, hstep]
    exact replaceWith_leads.mpr rfl
  obtain ⟨report, hrun⟩ := hleads
  refine ⟨_, report, free, hrun, run_sound hb ⟨report, hrun⟩, b.replace_turn v, hfree, ?_⟩
  have hreplaced := hb.toCoherent.find?_replace (v := v) (find?_of_resolve? hu) rfl u.uid
  rwa [if_pos rfl] at hreplaced

end Ruleset

/-- Where active abilities are prevented on activations only, a step that prevents those of a
unit for some cycles does so as long as no more turns than these have ended: through any accepted
actions but activations, and while the unit is on a board, every activation by its owner is
rejected with the turn in which its abilities are free again.  Once more turns have ended, none is
rejected for prevention. -/
theorem prevention_lasts {rules : Ruleset}
    (hrules : ∀ card ∈ rules.catalog.cards, card.PreventsWhenActivated) {b : Battle}
    (hb : b.corruption? = none) {actor u : BoardUnit} {event : Event} {ref : UnitRef}
    {cycles : UInt32} (hu : ref.resolve? b actor event = some u)
    (hturn : b.turn.toNat + cycles.toNat + 1 < UInt32.size) :
  ∃ s report free, rules.run actor event [.preventActive ref cycles] b = .ok (s, report)
    ∧ free.toNat = b.turn.toNat + cycles.toNat + 1
    ∧ ∀ steps b', rules.Run s steps b' → (∀ step ∈ steps, ¬step.2.isActivation) →
      ∀ slot ability target, rules.abilityOf? b' u.uid slot = some ability →
        (steps.countP (·.2.endsTurn) ≤ cycles.toNat →
          rules.resolve b' (.activate u.owner u.uid slot target)
            = .error (.rejected (.abilityPrevented u.uid free)))
        ∧ (cycles.toNat < steps.countP (·.2.endsTurn) → ∀ player unit turn,
          rules.resolve b' (.activate player u.uid slot target)
            ≠ .error (.rejected (.abilityPrevented unit turn)))
  := by
  have hsound := Battle.corruption?_eq_none_iff.mp hb
  obtain ⟨s, report, free, hrun, hs, hsturn, hfree, hfind⟩ :=
    Ruleset.run_preventActive hsound hu hturn
  refine ⟨s, report, free, hrun, hfree, ?_⟩
  intro steps b' hsteps hquiet slot ability target hability
  obtain ⟨v, hv, -⟩ := Option.bind_eq_some_iff.mp hability
  have hreminded := hsteps.reminds hrules hquiet hfind hv
  have hcount := hsteps.turn
  have hprevented : v.isPrevented b'.turn ↔ b'.turn.toNat < free.toNat :=
    BoardUnit.isPrevented_iff hreminded.preventedUntil
  rw [hcount, hsturn, hfree] at hprevented
  constructor
  · intro hearly
    have hpermit : rules.permit b' (.activate v.owner u.uid slot target)
        = .error (.abilityPrevented u.uid (v.preventedUntil.getD b'.turn)) :=
      Ruleset.permit_of_prevented hv (Battle.corruption?_eq_none_iff.mpr (hsteps.sound hs))
        hability (hprevented.mpr (by omega))
    rw [hreminded.owner, hreminded.preventedUntil] at hpermit
    rw [Ruleset.resolve, hpermit]
    rfl
  · intro hlate player unit turn hrejected
    have hfree : ¬v.isPrevented b'.turn := fun h => absurd (hprevented.mp h) (by omega)
    exact Ruleset.permit_failsOnly hv hfree _ (Ruleset.permit_of_rejected hrejected) trivial

/-- A drummer who is prevented for one cycle can not beat the drum when one turn has ended, and
can when two have. -/
theorem prevention_lasts_parade :
  let rules : Ruleset := { catalog := ⟨[.drummer], by decide⟩ }
  let drummer : BoardUnit := .ofCard ⟨1⟩ 0 ⟨.front, 0⟩ .drummer
  let event : Event := { trigger := .activate, player := 0 }
  let beat : Action := .activate 0 ⟨1⟩ 1 none
  ∃ s report m m',
    rules.run drummer event [.preventActive .self 1] .parade = .ok (s, report)
    ∧ rules.Run s [(s, .endTurn 0)] m ∧ rules.Run s [(s, .endTurn 0), (m, .endTurn 1)] m'
    ∧ rules.resolve m beat = .error (.rejected (.abilityPrevented ⟨1⟩ 3))
    ∧ (rules.resolve m' beat).isOk
    ∧ ∀ player unit turn, rules.resolve m' (.activate player ⟨1⟩ 1 none)
      ≠ .error (.rejected (.abilityPrevented unit turn))
  := by
  intro rules drummer event beat
  have hrules : ∀ card ∈ rules.catalog.cards, card.PreventsWhenActivated := by
    intro card hcard ability hability block hblock htrigger
    obtain rfl := List.mem_singleton.mp hcard
    obtain rfl := List.mem_singleton.mp hability
    obtain rfl := List.mem_singleton.mp hblock
    exact absurd rfl htrigger
  have hself : UnitRef.self.resolve? .parade drummer event = some drummer := rfl
  have hturn : Battle.parade.turn.toNat + (1 : UInt32).toNat + 1 < UInt32.size := by decide
  obtain ⟨s, report, free, hrun, hfree, hlasts⟩ :=
    prevention_lasts hrules (by decide) hself hturn
  obtain rfl : free = 3 := UInt32.toNat_inj.mp hfree
  have hturns : (rules.run drummer event [.preventActive .self 1] .parade).toOption.any
      fun done => (rules.resolve done.1 (.endTurn 0)).toOption.any fun first =>
        (rules.abilityOf? first.battle ⟨1⟩ 1).isSome
        && (rules.resolve first.battle (.endTurn 1)).toOption.any fun second =>
          (rules.abilityOf? second.battle ⟨1⟩ 1).isSome
          && (rules.resolve second.battle beat).isOk := by
    decide +kernel
  rw [hrun] at hturns
  obtain ⟨first, hfirst, hturns⟩ := Ruleset.exists_resolution hturns
  obtain ⟨hability, hturns⟩ := (Bool.and_eq_true _ _).mp hturns
  obtain ⟨second, hsecond, hturns⟩ := Ruleset.exists_resolution hturns
  obtain ⟨hability', haccepted⟩ := (Bool.and_eq_true _ _).mp hturns
  obtain ⟨ability, hability⟩ := Option.isSome_iff_exists.mp hability
  obtain ⟨ability', hability'⟩ := Option.isSome_iff_exists.mp hability'
  have hone : rules.Run s [(s, .endTurn 0)] first.battle := .cons hfirst (.nil _)
  have htwo : rules.Run s [(s, .endTurn 0), (first.battle, .endTurn 1)] second.battle :=
    .cons hfirst (.cons hsecond (.nil _))
  have hprevented := (hlasts _ _ hone (by simp [Action.isActivation]) 1 ability none hability).1
  have hallowed := (hlasts _ _ htwo (by simp [Action.isActivation]) 1 ability' none hability').2
  exact ⟨s, report, first.battle, second.battle, hrun, hone, htwo, hprevented (Nat.le_refl 1),
    haccepted, hallowed (Nat.lt_succ_self 1)⟩

end CardBattle
