import CardBattle.Proofs.Action.Chronicle
import CardBattle.Proofs.Cascade.Chance

/-!
# Actions and chance

What an action asks of a battle, and what it does to it, does not depend on the seed.  In two
battles that differ in nothing but the seed an action is accepted or rejected alike, and where
it is carried out the battles after it are twins: they differ in the seed and in the names that
the lines about peeks show (`chance_confined`).
-/

namespace CardBattle

open Change

variable {rules : Ruleset} {seed seed' : UInt64} {b b' : Battle}

/-! ### Checks -/

namespace Battle.Twins

variable (h : b.Twins rules seed seed' b')

include h

theorem corruption? :
  b'.corruption? = b.corruption?
  := by
  rw [Battle.corruption?, Battle.corruption?, h.activePlayer, h.uids, h.side0, h.side1]

theorem sideOf (player : UInt8) :
  b'.sideOf player = b.sideOf player
  := by rw [Battle.sideOf, Battle.sideOf, h.side?]

theorem ownedUnit (player : UInt8) (uid : Uid) :
  b'.ownedUnit player uid = b.ownedUnit player uid
  := by rw [Battle.ownedUnit, Battle.ownedUnit, h.find?]

theorem attackTargets (attacker : Uid) :
  b'.attackTargets attacker = b.attackTargets attacker
  := by
  have hside : b'.side? = b.side? := funext h.side?
  rw [Battle.attackTargets, Battle.attackTargets, h.find?, hside]

theorem abilityTargets (uid : Uid) (slot : UInt8) :
  rules.abilityTargets b' uid slot = rules.abilityTargets b uid slot
  := by rw [Ruleset.abilityTargets, Ruleset.abilityTargets, h.find?, h.units]

theorem checkActivation (player : UInt8) (uid : Uid) (slot : UInt8) (target : Option Uid) :
  rules.checkActivation b' player uid slot target = rules.checkActivation b player uid slot target
  := by
  have hready : ∀ u, Ruleset.checkReady b' u slot = Ruleset.checkReady b u slot := by
    intro u
    rw [Ruleset.checkReady, Ruleset.checkReady, h.turn]
  have htarget : ∀ ability, rules.checkTarget b' uid slot target ability
      = rules.checkTarget b uid slot target ability := by
    intro ability
    cases target with
    | none => rfl
    | some target => rw [Ruleset.checkTarget, Ruleset.checkTarget, h.abilityTargets]
  simp only [Ruleset.checkActivation, h.ownedUnit, h.sideOf, hready, htarget]

/-- An action gets the same permit in both of two twins, or is rejected for the same cause. -/
theorem permit (action : Action) :
  rules.permit b' action = rules.permit b action
  := by
  have hintegrity : Ruleset.checkIntegrity b' = Ruleset.checkIntegrity b := by
    rw [Ruleset.checkIntegrity, Ruleset.checkIntegrity, h.corruption?]
  cases action with
  | playUnit player handIndex cell =>
    rw [Ruleset.permit, Ruleset.permit, hintegrity, Ruleset.checkPlay, Ruleset.checkPlay, h.sideOf]
  | move player uid cell =>
    rw [Ruleset.permit, Ruleset.permit, hintegrity, Ruleset.checkMove, Ruleset.checkMove,
      h.ownedUnit, h.sideOf]
  | attack player attacker target =>
    rw [Ruleset.permit, Ruleset.permit, hintegrity, Ruleset.checkAttack, Ruleset.checkAttack,
      h.ownedUnit, h.attackTargets]
  | activate player uid slot target =>
    rw [Ruleset.permit, Ruleset.permit, hintegrity, h.checkActivation]
  | endTurn player => rw [Ruleset.permit, Ruleset.permit, hintegrity]

end Battle.Twins

/-! ### Deeds -/

section

variable {α β : Type} {S : α → β → Prop}

theorem lift_fault_concurs {x : Except Fault α} {y : Except Fault β} (h : Concurs S x y) :
  Concurs S (liftM x : Except Stop α) (liftM y : Except Stop β)
  := by
  cases h with
  | ok h => exact .ok h
  | error e => exact .error (Stop.fault e)

theorem lift_rejection_concurs {x : Except Rejection α} {y : Except Rejection β}
    (h : Concurs S x y) :
  Concurs S (liftM x : Except Stop α) (liftM y : Except Stop β)
  := by
  cases h with
  | ok h => exact .ok h
  | error e => exact .error (Stop.rejected e)

end

namespace Ruleset

variable {player : UInt8}

theorem settle_concurs (h : b.Twins rules seed seed' b') (player : UInt8) (side : Side)
    (u : BoardUnit) :
  Concurs (·.Twins rules seed seed' ·) (settle b player side u) (settle b' player side u)
  := by
  rw [settle, settle]
  split
  · exact .ok (h.setSide player _)
  · exact .error _

theorem emitAndRefresh_blind (event : Event) (first second : Trigger) :
  (rules.emitAndRefresh event first second).Blind rules seed seed'
  := (emit_blind event).andThen (refresh_blind event.player first second)

theorem playUnit_coincide (h : b.Twins rules seed seed' b') (handIndex : UInt64) (cell : Cell)
    (card : Card) :
  Coincide rules seed seed' (rules.playUnit player handIndex cell card b)
    (rules.playUnit player handIndex cell card b')
  := by
  rw [playUnit, playUnit, h.uids, h.sideOf]
  apply concurs_bind
  rintro ⟨uid, uids⟩ _
  have hissued : { b with uids }.Twins rules seed seed' { b' with uids } :=
    ⟨h.seed_left, by rw [h.eq], h.log⟩
  apply concurs_bind
  intro side _
  apply concurs_bind
  intro side' _
  apply (lift_rejection_concurs (settle_concurs hissued player side' _)).bind
  intro m m' hm
  apply lift_fault_concurs
  apply emitAndRefresh_blind _ _ _ _ _ (hm.record _)

theorem moveUnit_coincide (h : b.Twins rules seed seed' b') (uid : Uid) (cell : Cell) :
  Coincide rules seed seed' (rules.moveUnit player uid cell b)
    (rules.moveUnit player uid cell b')
  := by
  rw [moveUnit, moveUnit, h.sideOf]
  apply concurs_bind
  intro side _
  split
  · exact .error _
  · apply (lift_rejection_concurs (settle_concurs h player _ _)).bind
    intro m m' hm
    apply lift_fault_concurs
    apply emitAndRefresh_blind _ _ _ _ _ (hm.record _)

theorem strike_concurs (h : b.Twins rules seed seed' b') (attacker target : BoardUnit) :
  Concurs (fun x y => x.1.Twins rules seed seed' y.1 ∧ y.2 = x.2) (strike b attacker target)
    (strike b' attacker target)
  := by
  rw [strike, strike]
  apply concurs_bind
  intro hurt _
  have hhurt := h.replace hurt
  dsimp only
  rw [hhurt.find?]
  split
  · exact .ok ⟨hhurt.replace _, rfl⟩
  · exact .ok ⟨hhurt, rfl⟩

theorem attackUnit_blind (attacker target : Uid) :
  (rules.attackUnit player attacker target).Blind rules seed seed'
  := by
  intro b b' h
  have hfirst : { b with firstAttacker := b.firstAttacker <|> some attacker }.Twins rules seed
      seed' { b' with firstAttacker := b'.firstAttacker <|> some attacker } :=
    ⟨h.seed_left, by rw [h.eq], h.log⟩
  rw [attackUnit, attackUnit]
  apply (emit_blind _ _ _ hfirst).bind
  rintro ⟨m, r⟩ ⟨m', _⟩ ⟨(hm : m.Twins rules seed seed' m'), rfl⟩
  dsimp only
  rw [hm.find?, hm.find?]
  split
  · next att tgt _ _ =>
    apply (strike_concurs hm att tgt).bind
    rintro ⟨m₁, _⟩ ⟨m₁', amount⟩ ⟨(hm₁ : m₁.Twins rules seed seed' m₁'), rfl⟩
    have hline : strikeLine m₁' player attacker target amount
        = strikeLine m₁ player attacker target amount := by
      rw [strikeLine, strikeLine, hm₁.find?]
    dsimp only
    rw [hline]
    apply ((emit_blind _).andThen (sweep_blind _ _) _ _ (hm₁.record _)).bind
    rintro ⟨m₂, s⟩ ⟨m₂', _⟩ ⟨hm₂, rfl⟩
    exact .ok ⟨hm₂, rfl⟩
  · exact .ok ⟨hm.record _, rfl⟩

theorem activate_coincide (h : b.Twins rules seed seed' b') (uid : Uid) (slot : UInt8)
    (target : Option Uid) (ability : Ability) :
  Coincide rules seed seed' (rules.activate player uid slot target ability b)
    (rules.activate player uid slot target ability b')
  := by
  rw [activate, activate, h.sideOf]
  apply concurs_bind
  intro side _
  have hpaid := h.setSide player (side.discardUpTo ability.discardCost.toNat).2
  dsimp only
  rw [hpaid.find?]
  apply (lift_fault_concurs
    (runActivation_blind uid ability _ _ _ ((hpaid.record _).foldl_record _ _))).bind
  rintro ⟨m, r⟩ ⟨m', _⟩ ⟨(hm : m.Twins rules seed seed' m'), rfl⟩
  dsimp only
  rw [hm.sideOf]
  apply concurs_bind
  intro side' _
  have hused := hm.setSide player (side'.markUsed ⟨uid, slot⟩)
  rw [hused.find?]
  split
  · exact .ok ⟨hused.replace _, rfl⟩
  · exact .ok ⟨hused, rfl⟩

theorem endTurn_blind :
  rules.endTurn.Blind rules seed seed'
  := by
  intro b b' h
  have hunused : { b with side0.used := ∅, side1.used := ∅ }.Twins rules seed seed'
      { b' with side0.used := ∅, side1.used := ∅ } := by
    rw [h.side0, h.side1]
    apply h.setSides
  have hcycle : Coincide rules seed seed' (rules.endCycle b) (rules.endCycle b') := by
    apply (changeAll_concurs _ hunused).bind
    intro m m' hm
    apply sweep_blind _ _ _ _ hm
  apply hcycle.bind
  rintro ⟨m, r⟩ ⟨m', _⟩ ⟨(hm : m.Twins rules seed seed' m'), rfl⟩
  have hnext : Concurs (·.Twins rules seed seed' ·) (nextTurn m) (nextTurn m') := by
    rw [nextTurn, nextTurn, hm.turn, hm.activePlayer]
    apply concurs_bind
    intro turn _
    apply Concurs.ok
    apply Battle.Twins.record
    exact ⟨hm.seed_left, by rw [hm.eq], hm.log⟩
  apply hnext.bind
  intro m₁ m₁' hm₁
  rw [hm₁.activePlayer]
  apply (emitAndRefresh_blind _ _ _ _ _ hm₁).bind
  rintro ⟨m₂, s⟩ ⟨m₂', _⟩ ⟨hm₂, rfl⟩
  exact .ok ⟨hm₂, rfl⟩

/-- An action that has been checked does the same to twins. -/
theorem carryOut_coincide (h : b.Twins rules seed seed' b') (permit : Permit) :
  Coincide rules seed seed' (rules.carryOut permit b) (rules.carryOut permit b')
  := by
  cases permit with
  | playUnit player handIndex cell card => apply playUnit_coincide h
  | move player uid cell => apply moveUnit_coincide h
  | attack player attacker target =>
    apply lift_fault_concurs (attackUnit_blind attacker target b b' h)
  | activate player uid slot target ability => apply activate_coincide h
  | endTurn => apply lift_fault_concurs (endTurn_blind b b' h)

end Ruleset

/-- Chance does not reach the game.  With another seed an action is rejected for the same
cause, stops with the same fault, or is accepted as before; and then nothing is different
after it but the seed and the names in the lines about peeks that it adds to the log.  The
log is as long as before, and the same choices are left pending. -/
theorem chance_confined (rules : Ruleset) (b : Battle) (seed' : UInt64) (action : Action) :
  Concurs
    (fun resolution resolution' =>
      resolution'.battle = { resolution.battle with seed := seed', log := resolution'.battle.log }
      ∧ resolution.battle.seed = b.seed
      ∧ resolution.battle.log = b.log ++ resolution.log
      ∧ resolution'.battle.log = b.log ++ resolution'.log
      ∧ List.Forall₂ (LineTwins rules b.seed seed') resolution.log resolution'.log
      ∧ resolution'.battle.log.length = resolution.battle.log.length
      ∧ resolution'.pending = resolution.pending)
    (rules.resolve b action) (rules.resolve { b with seed := seed' } action)
  := by
  have h := Battle.Twins.reseed rules b seed'
  have hresolved : Concurs (fun resolution resolution' =>
      resolution.battle.Twins rules b.seed seed' resolution'.battle
      ∧ List.Forall₂ (LineTwins rules b.seed seed') resolution.log resolution'.log
      ∧ resolution'.pending = resolution.pending)
      (rules.resolve b action) (rules.resolve { b with seed := seed' } action) := by
    rw [Ruleset.resolve, Ruleset.resolve, h.permit]
    apply concurs_bind
    intro permit _
    apply (Ruleset.carryOut_coincide h permit).bind
    rintro ⟨m, r⟩ ⟨m', _⟩ ⟨hm, rfl⟩
    exact .ok ⟨hm, List.forall₂_drop _ hm.log, rfl⟩
  apply hresolved.mono
  rintro resolution resolution' hleft hright ⟨htwins, hlog, hpending⟩
  use htwins.eq, htwins.seed_left, (Ruleset.resolve_narrates hleft).1,
    (Ruleset.resolve_narrates hright).1, hlog, htwins.log.length_eq.symm, hpending

/-- A peek does depend on the seed. -/
example :
  Ruleset.peek { catalog := ⟨[], by decide⟩ } 0 ["scout", "guard", "archer"] 1
    ≠ Ruleset.peek { catalog := ⟨[], by decide⟩ } 1 ["scout", "guard", "archer"] 1
  := by decide +kernel

end CardBattle
