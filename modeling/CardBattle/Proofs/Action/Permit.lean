import CardBattle.Action.Resolution
import CardBattle.Proofs.Change.Composition

/-!
# What a permit stands for

A permit for an action is issued only for a battle that is not corrupt, and only if what
carrying out the action relies on has been found: the side of the player, the card in the
hand, the free cell, the unit on the board, its ability, the target in its reach
(`Permit.Checked`).
-/

namespace CardBattle

/-- What the check of an action has found. -/
def Permit.Checked (rules : Ruleset) (b : Battle) : Permit → Prop
  | .playUnit player handIndex cell card =>
      ∃ side id, b.side? player = some side ∧ side.hand[handIndex.toNat]? = some id
        ∧ rules.catalog.find? id = some card ∧ side.board.isFree cell
  | .move player uid cell =>
      ∃ side u, b.side? player = some side ∧ b.find? uid = some u ∧ u.owner = player
        ∧ side.board.isFree cell
  | .attack player attacker target =>
      ∃ u, b.find? attacker = some u ∧ u.owner = player ∧ ¬u.hasAttacked
        ∧ u.canAttackFromLane ∧ target ∈ b.attackTargets attacker
  | .activate player uid slot _ ability =>
      ∃ side u card, b.side? player = some side ∧ b.find? uid = some u ∧ u.owner = player
        ∧ rules.cardOf? u = some card ∧ card.activeAbility? slot = some ability
  | .endTurn => True

/-- The permit is one for the action. -/
def Permit.Grants (action : Action) : Permit → Prop
  | .playUnit player handIndex cell _ => action = .playUnit player handIndex cell
  | .move player uid cell => action = .move player uid cell
  | .attack player attacker target => action = .attack player attacker target
  | .activate player uid slot target _ => action = .activate player uid slot target
  | .endTurn => ∃ player, action = .endTurn player

theorem Rejection.unless_eq_ok {met : Prop} [Decidable met] {r : Rejection} {x : Unit} :
  Rejection.unless met r = .ok x ↔ met
  := by
  rw [Rejection.unless]
  split
  · next h => simp [h]
  · next h => simp [h]

namespace Battle

variable {b : Battle} {player : UInt8}

theorem sideOf_eq_ok {side : Side} :
  b.sideOf player = .ok side ↔ b.side? player = some side
  := by
  rw [sideOf]
  split
  · next h => simp [h]
  · next h => simp [h]

theorem ownedUnit_eq_ok {uid : Uid} {u : BoardUnit} :
  b.ownedUnit player uid = .ok u ↔ b.find? uid = some u ∧ u.owner = player
  := by
  rw [ownedUnit]
  split
  · next v hv =>
    rw [hv]
    split
    · next howner =>
      simp only [Except.ok.injEq, Option.some.injEq]
      constructor
      · rintro rfl
        exact ⟨rfl, howner⟩
      · rintro ⟨rfl, -⟩
        rfl
    · next howner =>
      simp only [reduceCtorEq, Option.some.injEq, false_iff, not_and]
      rintro rfl
      exact howner
  · next h => simp [h]

end Battle

namespace Ruleset

variable {rules : Ruleset} {b : Battle} {player : UInt8} {uid : Uid} {cell : Cell}

/-- The card that is found in a hand is in the catalog. -/
theorem unitCardInHand_ok {side : Side} {handIndex : UInt64} {card : Card}
    (h : rules.unitCardInHand side handIndex = .ok card) :
  ∃ id, side.hand[handIndex.toNat]? = some id ∧ rules.catalog.find? id = some card
  := by
  rw [unitCardInHand] at h
  split at h
  · cases h
  · next id hid =>
    split at h
    · cases h
    · next found hfound =>
      split at h
      · obtain rfl := Except.ok.inj h
        use id
      · cases h

theorem checkPlay_ok {handIndex : UInt64} {card : Card}
    (h : rules.checkPlay b player handIndex cell = .ok card) :
  (Permit.playUnit player handIndex cell card).Checked rules b
  := by
  obtain ⟨side, hside, h⟩ := bind_eq_ok.mp h
  obtain ⟨found, hfound, h⟩ := bind_eq_ok.mp h
  obtain ⟨_, -, h⟩ := bind_eq_ok.mp h
  obtain ⟨_, hfree, h⟩ := bind_eq_ok.mp h
  obtain rfl := pure_eq_ok.mp h
  obtain ⟨id, hid, hcard⟩ := unitCardInHand_ok hfound
  use side, id, Battle.sideOf_eq_ok.mp hside, hid, hcard, Rejection.unless_eq_ok.mp hfree

theorem checkMove_ok {x : Unit} (h : checkMove b player uid cell = .ok x) :
  (Permit.move player uid cell).Checked rules b
  := by
  obtain ⟨u, hu, h⟩ := bind_eq_ok.mp h
  obtain ⟨side, hside, h⟩ := bind_eq_ok.mp h
  obtain ⟨hfind, howner⟩ := Battle.ownedUnit_eq_ok.mp hu
  use side, u, Battle.sideOf_eq_ok.mp hside, hfind, howner, Rejection.unless_eq_ok.mp h

theorem checkAttack_ok {attacker target : Uid} {x : Unit}
    (h : checkAttack b player attacker target = .ok x) :
  (Permit.attack player attacker target).Checked rules b
  := by
  obtain ⟨u, hu, h⟩ := bind_eq_ok.mp h
  obtain ⟨_, hattacked, h⟩ := bind_eq_ok.mp h
  obtain ⟨_, hlane, h⟩ := bind_eq_ok.mp h
  obtain ⟨hfind, howner⟩ := Battle.ownedUnit_eq_ok.mp hu
  use u, hfind, howner, Rejection.unless_eq_ok.mp hattacked, Rejection.unless_eq_ok.mp hlane,
    Rejection.unless_eq_ok.mp h

theorem checkActivation_ok {slot : UInt8} {target : Option Uid} {ability : Ability}
    (h : rules.checkActivation b player uid slot target = .ok ability) :
  (Permit.activate player uid slot target ability).Checked rules b
  := by
  obtain ⟨u, hu, h⟩ := bind_eq_ok.mp h
  split at h
  · cases h
  · next found hfound =>
    obtain ⟨_, -, h⟩ := bind_eq_ok.mp h
    obtain ⟨side, hside, h⟩ := bind_eq_ok.mp h
    obtain ⟨_, -, h⟩ := bind_eq_ok.mp h
    obtain ⟨_, -, h⟩ := bind_eq_ok.mp h
    obtain rfl := pure_eq_ok.mp h
    obtain ⟨card, hcard, hability⟩ := Option.bind_eq_some_iff.mp hfound
    obtain ⟨hfind, howner⟩ := Battle.ownedUnit_eq_ok.mp hu
    use side, u, card, Battle.sideOf_eq_ok.mp hside, hfind, howner, hcard, hability

theorem checkIntegrity_ok {x : Unit} (h : checkIntegrity b = .ok x) :
  b.corruption? = none
  := by
  rw [checkIntegrity] at h
  split at h
  · assumption
  · cases h

/-- A permit is issued for a battle that is not corrupt, after the check of the action. -/
theorem permit_ok {action : Action} {permit : Permit} (h : rules.permit b action = .ok permit) :
  b.corruption? = none ∧ permit.Checked rules b
  := by
  obtain ⟨_, hintegrity, h⟩ := bind_eq_ok.mp h
  use checkIntegrity_ok hintegrity
  cases action with
  | playUnit player handIndex cell =>
    obtain ⟨card, hcard, h⟩ := bind_eq_ok.mp h
    obtain rfl := pure_eq_ok.mp h
    apply checkPlay_ok hcard
  | move player uid cell =>
    obtain ⟨_, hcheck, h⟩ := bind_eq_ok.mp h
    obtain rfl := pure_eq_ok.mp h
    apply checkMove_ok hcheck
  | attack player attacker target =>
    obtain ⟨_, hcheck, h⟩ := bind_eq_ok.mp h
    obtain rfl := pure_eq_ok.mp h
    apply checkAttack_ok hcheck
  | activate player uid slot target =>
    obtain ⟨ability, hability, h⟩ := bind_eq_ok.mp h
    obtain rfl := pure_eq_ok.mp h
    apply checkActivation_ok hability
  | endTurn player =>
    obtain rfl := pure_eq_ok.mp h
    trivial

/-- The permit that is issued for an action is one for it. -/
theorem permit_grants {action : Action} {permit : Permit}
    (h : rules.permit b action = .ok permit) :
  permit.Grants action
  := by
  obtain ⟨_, -, h⟩ := bind_eq_ok.mp h
  cases action with
  | playUnit player handIndex cell =>
    obtain ⟨card, -, h⟩ := bind_eq_ok.mp h
    obtain rfl := pure_eq_ok.mp h
    rfl
  | move player uid cell =>
    obtain ⟨_, -, h⟩ := bind_eq_ok.mp h
    obtain rfl := pure_eq_ok.mp h
    rfl
  | attack player attacker target =>
    obtain ⟨_, -, h⟩ := bind_eq_ok.mp h
    obtain rfl := pure_eq_ok.mp h
    rfl
  | activate player uid slot target =>
    obtain ⟨ability, -, h⟩ := bind_eq_ok.mp h
    obtain rfl := pure_eq_ok.mp h
    rfl
  | endTurn player =>
    obtain rfl := pure_eq_ok.mp h
    use player

end Ruleset

/-! ### Rejections and faults among the stops -/

theorem lift_rejection_eq_ok {α : Type} {x : Except Rejection α} {a : α} :
  (liftM x : Except Stop α) = .ok a ↔ x = .ok a
  := by
  cases x with
  | error r => simp [liftM, monadLift, MonadLift.monadLift]
  | ok a => simp [liftM, monadLift, MonadLift.monadLift]

theorem lift_fault_eq_ok {α : Type} {x : Except Fault α} {a : α} :
  (liftM x : Except Stop α) = .ok a ↔ x = .ok a
  := by
  cases x with
  | error r => simp [liftM, monadLift, MonadLift.monadLift]
  | ok a => simp [liftM, monadLift, MonadLift.monadLift]

/-- An action that has a result was permitted, and its permit was carried out. -/
theorem Ruleset.resolve_ok {rules : Ruleset} {b : Battle} {action : Action}
    {resolution : Resolution} (h : rules.resolve b action = .ok resolution) :
  ∃ permit report, rules.permit b action = .ok permit
    ∧ rules.carryOut permit b = .ok (resolution.battle, report)
  := by
  obtain ⟨permit, hpermit, h⟩ := bind_eq_ok.mp h
  obtain ⟨⟨battle, report⟩, hcarry, h⟩ := bind_eq_ok.mp h
  obtain rfl := pure_eq_ok.mp h
  use permit, report, lift_rejection_eq_ok.mp hpermit, hcarry

end CardBattle
