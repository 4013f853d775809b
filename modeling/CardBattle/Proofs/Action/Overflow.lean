import CardBattle.Proofs.Action.Soundness
import CardBattle.Proofs.Cascade.Overflow

/-!
# Accepted actions fail only by overflow

An action that is not accepted is rejected as such and changes nothing.  An action that is
accepted has a result unless an overflow stops it: what its check has found is still there
when it is carried out, and nothing else stops a cascade (`accepted_or_rejected`).
-/

namespace CardBattle

open Change

/-- A fault as `S` says has stopped the action. -/
def Stop.IsFault (S : Fault → Prop) (stop : Stop) : Prop :=
  ∃ fault, S fault ∧ stop = .fault fault

/-- A sum, a difference or a negation is no word, and nothing else has stopped the action. -/
def Stop.IsOverflow (stop : Stop) : Prop :=
  ∃ operation, stop = .fault (.overflow operation)

theorem lift_failsOnly {S : Fault → Prop} {α : Type} {x : Except Fault α}
    (h : FailsOnly S x) :
  FailsOnly (Stop.IsFault S) (liftM x)
  := by
  cases x with
  | ok a =>
    rw [lift_fault_eq_ok.mpr rfl]
    apply failsOnly_ok
  | error fault =>
    intro stop hstop
    obtain rfl := Except.error.inj hstop
    exact ⟨fault, h fault rfl, rfl⟩

/-- A cell that is free stays free when a unit is taken off the board. -/
theorem Board.Turns.isFree {b b' : Board} {i : Nat} {old : Option BoardUnit}
    (h : b.Turns i old none b') {cell : Cell} (hcell : b.isFree cell) :
  b'.isFree cell
  := by
  obtain ⟨j, hj, hfree⟩ := Board.isFree_iff.mp hcell
  apply Board.isFree_iff.mpr
  use j, hj
  by_cases hij : i = j
  · subst hij
    apply h.holds
  · rw [h.cells_eq, List.getElem?_set_ne hij]
    apply hfree

/-- A player who has a side in one battle has one in every battle. -/
theorem Battle.exists_side {b : Battle} {player : UInt8} {side : Side}
    (h : b.side? player = some side) (b' : Battle) :
  ∃ s, b'.side? player = some s
  := by
  obtain ⟨rfl, -⟩ | ⟨rfl, -⟩ := side?_cases h
  · use b'.side0
    rfl
  · use b'.side1
    rfl

namespace Ruleset

variable {rules : Ruleset} {b : Battle} {player : UInt8} {uid : Uid} {cell : Cell}

/-- A unit settles in a free cell. -/
theorem settle_of_isFree (b : Battle) (player : UInt8) {side : Side} {u : BoardUnit}
    (h : side.board.isFree u.cell) :
  ∃ m, settle b player side u = .ok m
  := by
  obtain ⟨i, board, -, hplace, -⟩ := Board.place?_of_isFree h
  use b.setSide player { side with board }
  rw [settle, hplace]

/-- Broadcasting an event that is not nested and refreshing the auras fails only by
overflow. -/
theorem emitAndRefresh_failsOnly (hb : b.Coherent) {event : Event} (hevent : event.depth = 0)
    (first second : Trigger) :
  FailsOnly Fault.IsOverflow (rules.emitAndRefresh event first second b)
  := by
  apply failsOnly_andThen
  · apply rules.emit_failsOnly
    rw [hevent]
    apply hb.shallow
  · intro m hm
    apply refresh_failsOnly
    apply hb.moves (rules.emit_moves _ _ _ hm)

/-! ### The kinds of actions -/

section

variable {S : Fault → Prop}

/-- A unit that can be played is deployed unless no uid is left for it. -/
theorem playUnit_failsOnly {handIndex : UInt64} {card : Card}
    (h : (Permit.playUnit player handIndex cell card).Checked rules b)
    (hnext : FailsOnly S (Word.next b.uids.next))
    (hrest : ∀ m, b.Deploys player handIndex cell card m →
      FailsOnly S (rules.emitAndRefresh
        { trigger := .onDeploy, player, source := some ⟨b.uids.next⟩ } .ruleMod .aura m)) :
  FailsOnly (Stop.IsFault S) (rules.playUnit player handIndex cell card b)
  := by
  obtain ⟨side, id, hside, hid, -, hfree⟩ := h
  have hplace : handIndex.toNat < side.hand.length := (List.getElem?_eq_some_iff.mp hid).1
  have hissue : FailsOnly S b.uids.issue := by
    apply hnext.bind
    intro next _
    apply failsOnly_ok
  apply (lift_failsOnly hissue).bind
  rintro ⟨uid, uids⟩ hissued
  obtain ⟨next, hnext, hissued⟩ := bind_eq_ok.mp (lift_fault_eq_ok.mp hissued)
  obtain ⟨rfl, rfl⟩ := Prod.mk.inj (pure_eq_ok.mp hissued)
  refine failsOnly_bind_of_ok (lift_rejection_eq_ok.mpr (Battle.sideOf_eq_ok.mpr hside)) ?_
  have htake : side.takeFromHand handIndex
      = .ok { side with hand := side.hand.eraseIdx handIndex.toNat } := if_pos hplace
  refine failsOnly_bind_of_ok (lift_fault_eq_ok.mpr htake) ?_
  obtain ⟨m, hm⟩ : ∃ m, settle { b with uids := ⟨next⟩ } player
      { side with hand := side.hand.eraseIdx handIndex.toNat }
      (.ofCard ⟨b.uids.next⟩ player cell card) = .ok m :=
    settle_of_isFree _ player hfree
  refine failsOnly_bind_of_ok (lift_rejection_eq_ok.mpr hm) ?_
  apply lift_failsOnly
  apply hrest
  apply deploys_of_settle hnext hside htake hm

/-- A unit that can move is relocated. -/
theorem moveUnit_failsOnly (hb : b.Coherent)
    (h : (Permit.move player uid cell).Checked rules b)
    (hrest : ∀ m, b.Relocates player cell m →
      FailsOnly S (rules.emitAndRefresh
        { trigger := .onUnitMove, player, source := some uid, mover := some uid }
        .aura .ruleMod m)) :
  FailsOnly (Stop.IsFault S) (rules.moveUnit player uid cell b)
  := by
  obtain ⟨side, u, hside, hfind, rfl, hfree⟩ := h
  obtain ⟨side', hside', hu, -⟩ := hb.find?_side hfind
  obtain rfl := Option.some.inj (hside.symm.trans hside')
  obtain ⟨i, hturns⟩ := Board.setUnit_turns hu none
  refine failsOnly_bind_of_ok (lift_rejection_eq_ok.mpr (Battle.sideOf_eq_ok.mpr hside)) ?_
  have htake := Board.take?_eq_some.mpr ⟨hu, rfl⟩
  rw [htake]
  dsimp only
  obtain ⟨m, hm⟩ : ∃ m, settle b u.owner { side with board := side.board.setUnit uid none }
      { u with cell } = .ok m :=
    settle_of_isFree b u.owner (hturns.isFree hfree)
  refine failsOnly_bind_of_ok (lift_rejection_eq_ok.mpr hm) ?_
  apply lift_failsOnly
  apply hrest
  apply relocates_of_settle hside htake hm

/-- A strike fails only as the damage does. -/
theorem strike_failsOnly {attacker target : BoardUnit}
    (h : ∀ amount, FailsOnly S (target.takeDamage amount)) :
  FailsOnly S (strike b attacker target)
  := by
  apply (h _).bind
  intro hurt _
  dsimp only
  split
  · apply failsOnly_ok
  · apply failsOnly_ok

/-- An attack fails only as its declaration, its strike and what follows on it do. -/
theorem attackUnit_failsOnly {attacker target : Uid}
    (hdeclare : FailsOnly S (rules.emit (.ofAttack .onAttackDeclare player attacker target)
      { b with firstAttacker := b.firstAttacker <|> some attacker }))
    (hhit : ∀ m att tgt, (rules.emit (.ofAttack .onAttackDeclare player attacker target)).Leads
        { b with firstAttacker := b.firstAttacker <|> some attacker } m →
      m.find? tgt.uid = some tgt →
      FailsOnly S (strike m att tgt) ∧ ∀ m₁ amount line, strike m att tgt = .ok (m₁, amount) →
        FailsOnly S ((rules.emit (.ofAttack .onAttackHit player attacker target)).andThen
          (rules.sweep (some attacker) 1) (m₁.record line))) :
  FailsOnly S (rules.attackUnit player attacker target b)
  := by
  apply hdeclare.bind
  rintro ⟨m, r⟩ hm
  dsimp only
  split
  · next att tgt hatt htgt =>
    have htarget : m.find? tgt.uid = some tgt := by
      rw [Battle.find?_uid htgt]
      apply htgt
    obtain ⟨hstrike, hafter⟩ := hhit m att tgt ⟨r, hm⟩ htarget
    apply hstrike.bind
    rintro ⟨m₁, amount⟩ hm₁
    apply (hafter m₁ amount _ hm₁).bind
    rintro ⟨m₂, s⟩ _
    apply failsOnly_ok
  · apply failsOnly_ok

/-- An activation is paid for, and fails only as its scripts do. -/
theorem activate_failsOnly {slot : UInt8} {target : Option Uid} {ability : Ability}
    (h : (Permit.activate player uid slot target ability).Checked rules b)
    (hrun : ∀ m, Touches (fun _ _ => False) b m → FailsOnly S (rules.runActivation uid ability
      { trigger := .activate, player, source := some uid, target } m)) :
  FailsOnly (Stop.IsFault S) (rules.activate player uid slot target ability b)
  := by
  obtain ⟨side, u, card, hside, -⟩ := h
  refine failsOnly_bind_of_ok (lift_rejection_eq_ok.mpr (Battle.sideOf_eq_ok.mpr hside)) ?_
  dsimp only
  apply FailsOnly.bind
  · apply lift_failsOnly
    apply hrun
    apply pays_touches hside
  · rintro ⟨m, r⟩ _
    obtain ⟨s', hs'⟩ := Battle.exists_side hside m
    refine failsOnly_bind_of_ok (lift_rejection_eq_ok.mpr (Battle.sideOf_eq_ok.mpr hs')) ?_
    dsimp only
    split
    · apply failsOnly_ok
    · apply failsOnly_ok

/-- The end of a turn fails only as the changes of the units, the sweep, the count of turns and
what happens at the beginning of the next turn do. -/
theorem endTurn_failsOnly
    (hcycle : FailsOnly S
      (({ b with side0.used := ∅, side1.used := ∅ }).changeAll BoardUnit.endCycle))
    (hrest : ∀ m, ({ b with side0.used := ∅, side1.used := ∅ }).changeAll BoardUnit.endCycle
        = .ok m →
      FailsOnly S (rules.sweep none 1 m) ∧ ∀ m', (rules.sweep none 1).Leads m m' →
        FailsOnly S (Word.next m'.turn) ∧ ∀ turn line, FailsOnly S (rules.emitAndRefresh
          { trigger := .turnStartSelf, player := opponentOf m'.activePlayer } .ruleMod .aura
          { m' with
            turn
            activePlayer := opponentOf m'.activePlayer
            firstAttacker := none
            log := m'.log ++ [line] })) :
  FailsOnly S (rules.endTurn b)
  := by
  have hend : FailsOnly S (rules.endCycle b) := by
    apply hcycle.bind
    intro m hm
    apply (hrest m hm).1
  apply hend.bind
  rintro ⟨m', r⟩ hm'
  obtain ⟨m, hm, hsweep⟩ := bind_eq_ok.mp hm'
  obtain ⟨hnext, hbegin⟩ := (hrest m hm).2 m' ⟨r, hsweep⟩
  apply FailsOnly.bind
  · apply hnext.bind
    intro turn _
    apply failsOnly_ok
  · intro m'' hm''
    obtain ⟨turn, -, hm''⟩ := bind_eq_ok.mp hm''
    obtain rfl := pure_eq_ok.mp hm''
    apply (hbegin turn _).bind
    rintro ⟨m₃, s⟩ _
    apply failsOnly_ok

end

/-- In a sound battle an action that has been checked fails only by overflow. -/
theorem carryOut_failsOnly (hb : b.Sound) {permit : Permit} (h : permit.Checked rules b) :
  FailsOnly Stop.IsOverflow (rules.carryOut permit b)
  := by
  suffices hfails : FailsOnly (Stop.IsFault Fault.IsOverflow) (rules.carryOut permit b) by
    intro stop hstop
    obtain ⟨fault, ⟨operation, rfl⟩, rfl⟩ := hfails stop hstop
    use operation
  have hb := hb.toCoherent
  cases permit with
  | playUnit player handIndex cell card =>
    apply playUnit_failsOnly h (Word.next_failsOnly _)
    intro m hm
    apply emitAndRefresh_failsOnly (hb.deploys hm) rfl
  | move player uid cell =>
    apply moveUnit_failsOnly hb h
    intro m hm
    obtain ⟨m', -, hm', hlogs⟩ := hb.relocates hm
    apply emitAndRefresh_failsOnly (hm'.logs hlogs) rfl
  | attack player attacker target =>
    apply lift_failsOnly
    have hnoted : ({ b with
        firstAttacker := b.firstAttacker <|> some attacker } : Battle).Coherent :=
      hb.congr hb.active rfl rfl rfl
    apply attackUnit_failsOnly (rules.emit_failsOnly _ _ hnoted.shallow)
    intro m att tgt hdeclare htarget
    have hm := hnoted.moves (rules.emit_moves _ _ _ hdeclare)
    use strike_failsOnly fun amount => tgt.takeDamage_failsOnly amount
    intro m₁ amount line hstrike
    have hstruck := (hm.strike htarget hstrike).logs (m₁.record_logs line)
    apply failsOnly_andThen (rules.emit_failsOnly _ _ hstruck.shallow)
    intro m₂ hhit
    apply sweep_failsOnly
    apply hstruck.moves (rules.emit_moves _ _ _ hhit)
  | activate player uid slot target ability =>
    apply activate_failsOnly h
    intro m hpaid
    apply runActivation_failsOnly
    apply Battle.Coherent.shallow
    apply hb.touches (fun _ _ => False.elim) hpaid
  | endTurn =>
    apply lift_failsOnly
    have hreset : ({ b with side0.used := ∅, side1.used := ∅ } : Battle).Coherent :=
      hb.congr hb.active rfl rfl rfl
    apply endTurn_failsOnly
    · apply Battle.changeAll_failsOnly
      intro u _
      apply u.endCycle_failsOnly
    · intro m hcycle
      have hm := hreset.changeAll (fun _ _ => BoardUnit.endCycle_endures) hcycle
      use sweep_failsOnly hm none
      intro m' hsweep
      have hm' := (sweep_sound hm hsweep).toCoherent
      use Word.next_failsOnly _
      intro turn line
      apply emitAndRefresh_failsOnly _ rfl
      exact hm'.congr (opponentOf_le _) rfl rfl rfl

end Ruleset

/-- An action that is not accepted is rejected for the reason that its check gives and
changes nothing; an action that is accepted has a result unless an overflow stops it. -/
theorem accepted_or_rejected (rules : Ruleset) (b : Battle) (action : Action) :
  (∀ rejection, rules.validate b action = .error rejection →
    rules.resolve b action = .error (.rejected rejection) ∧ rules.act b action = .ok b)
  ∧ (rules.validate b action = .ok () →
    (∃ resolution, rules.resolve b action = .ok resolution)
      ∨ ∃ operation, rules.resolve b action = .error (.fault (.overflow operation)))
  := by
  rw [Ruleset.validate]
  cases hpermit : rules.permit b action with
  | error r =>
    have hresolve : rules.resolve b action = .error (.rejected r) := by
      rw [Ruleset.resolve]
      rw [hpermit]
      rfl
    constructor
    · intro rejection h
      obtain rfl := Except.error.inj h
      use hresolve
      rw [Ruleset.act]
      rw [hresolve]
    · intro h
      cases h
  | ok permit =>
    constructor
    · intro rejection h
      cases h
    · intro _
      obtain ⟨hintegrity, hchecked⟩ := Ruleset.permit_ok hpermit
      have hb := Battle.corruption?_eq_none_iff.mp hintegrity
      have hfails : FailsOnly Stop.IsOverflow (rules.resolve b action) := by
        refine failsOnly_bind_of_ok (lift_rejection_eq_ok.mpr hpermit) ?_
        apply (Ruleset.carryOut_failsOnly hb hchecked).bind
        rintro ⟨battle, report⟩ _
        apply failsOnly_ok
      cases hresolve : rules.resolve b action with
      | ok resolution =>
        left
        use resolution
      | error stop =>
        right
        obtain ⟨operation, rfl⟩ := hfails stop hresolve
        use operation

/-- In a duel the unit with a target can attack, and the unit of the opponent can not be
given the order. -/
theorem accepted_or_rejected_duel :
  let rules : Ruleset := { catalog := ⟨[], List.nodup_nil⟩ }
  (rules.validate .duel (.attack 0 ⟨1⟩ ⟨2⟩) = .ok ()
    ∧ ((∃ resolution, rules.resolve .duel (.attack 0 ⟨1⟩ ⟨2⟩) = .ok resolution)
      ∨ ∃ operation, rules.resolve .duel (.attack 0 ⟨1⟩ ⟨2⟩)
        = .error (.fault (.overflow operation))))
  ∧ rules.validate .duel (.attack 0 ⟨2⟩ ⟨1⟩) = .error (.notOwner ⟨2⟩ 0)
    ∧ rules.act .duel (.attack 0 ⟨2⟩ ⟨1⟩) = .ok .duel
  := by
  intro rules
  have haccepted : rules.validate .duel (.attack 0 ⟨1⟩ ⟨2⟩) = .ok () := by decide
  have hrejected : rules.validate .duel (.attack 0 ⟨2⟩ ⟨1⟩) = .error (.notOwner ⟨2⟩ 0) := by decide
  constructor
  · use haccepted
    apply (accepted_or_rejected rules _ _).2 haccepted
  · use hrejected
    apply ((accepted_or_rejected rules _ _).1 _ hrejected).2

end CardBattle
