import CardBattle.Proofs.Action.Permit
import CardBattle.Proofs.Battle.Coherence
import CardBattle.Proofs.Cascade.Touch

/-!
# What actions lead to

Each kind of action changes the battle in some steps of its own and leaves the rest to
events, refreshes and sweeps.  What it leads to is given here step by step: a unit is
deployed, relocated or struck, an ability is paid for and its use is noted, a turn ends.
-/

namespace CardBattle

open Relation (ReflTransGen)
open Change

/-- The event of a trigger on the attack of a unit on another. -/
def Event.ofAttack (trigger : Trigger) (player : UInt8) (attacker target : Uid) : Event :=
  { trigger, player, source := some attacker, target := some target }

namespace Battle

/-- A card has left the hand of a player, and its unit is in a cell that was free. -/
def Deploys (player : UInt8) (handIndex : UInt64) (cell : Cell) (card : Card)
    (b b' : Battle) : Prop :=
  ∃ next side i board line, Word.next b.uids.next = .ok next ∧ b.side? player = some side
    ∧ handIndex.toNat < side.hand.length ∧ cell.index? = some i
    ∧ side.board.Turns i none (some (.ofCard ⟨b.uids.next⟩ player cell card)) board
    ∧ b' = ({ b with uids := ⟨next⟩ }.setSide player
      { side with hand := side.hand.eraseIdx handIndex.toNat, board }).record line

/-- A unit has left its cell, and it is in a cell that was free. -/
def Relocates (player : UInt8) (cell : Cell) (b b' : Battle) : Prop :=
  ∃ side u i board j board' line, b.side? player = some side
    ∧ side.board.Turns i (some u) none board ∧ cell.index? = some j
    ∧ board.Turns j none (some { u with cell }) board'
    ∧ b' = (b.setSide player { side with board := board' }).record line

/-- The use of an ability has been noted for the player, and for the unit if it is still on a
board. -/
def Uses (player : UInt8) (uid : Uid) (slot : UInt8) (ability : Ability) (b b' : Battle) :
    Prop :=
  ∃ side m, b.side? player = some side ∧ m = b.setSide player (side.markUsed ⟨uid, slot⟩)
    ∧ ((m.find? uid = none ∧ b' = m)
      ∨ ∃ u, m.find? uid = some u ∧ b' = m.replace (Ruleset.afterUse slot ability u))

/-- The turn has passed to the opponent, and nobody has attacked in it. -/
structure PassesTurn (b b' : Battle) : Prop where
  turn : Word.next b.turn = .ok b'.turn
  activePlayer : b'.activePlayer = opponentOf b.activePlayer
  firstAttacker : b'.firstAttacker = none
  side0 : b'.side0 = b.side0
  side1 : b'.side1 = b.side1
  uids : b'.uids = b.uids

theorem PassesTurn.units {b b' : Battle} (h : b.PassesTurn b') :
  b'.units = b.units
  := by
  unfold Battle.units
  rw [h.side0, h.side1]

/-- A battle is coherent still when the first attacker is noted. -/
theorem Coherent.noteAttacker {b : Battle} (hb : b.Coherent) (attacker : Uid) :
  ({ b with firstAttacker := b.firstAttacker <|> some attacker } : Battle).Coherent
  := hb.congr hb.active rfl rfl rfl

end Battle

/-- The damage that a unit does to another in an attack, with the first of its modifiers that no
attack has consumed. -/
def BoardUnit.damageTo (attacker target : BoardUnit) : Int32 :=
  damage attacker.impact target.defence (attacker.pendingModifier?.bind (attacker.modifiers[·]?))

/-- A unit takes damage, or it exerts itself. -/
inductive BoardUnit.Engages (u v : BoardUnit) : Prop
  | hurt {amount : Int32} (h : u.takeDamage amount = .ok v)
  | exert (h : u.Exerts v)

/-- Once the use of an ability is noted for the player, the unit that used it exerts itself. -/
theorem Battle.Uses.exerts {b b' : Battle} {player : UInt8} {uid : Uid} {slot : UInt8}
    {ability : Ability} (h : b.Uses player uid slot ability b') :
  ∃ side, b.side? player = some side
    ∧ Touches BoardUnit.Exerts (b.setSide player (side.markUsed ⟨uid, slot⟩)) b'
  := by
  obtain ⟨side, m, hside, rfl, ⟨-, rfl⟩ | ⟨u, hu, rfl⟩⟩ := h
  · use side, hside
  · use side, hside
    obtain rfl := find?_uid hu
    apply ReflTransGen.single
    apply Touch.alter hu
    rfl

theorem BoardUnit.Engages.endures {u v : BoardUnit} (h : u.Engages v) :
  u.Endures v
  := by
  cases h with
  | hurt h => apply (takeDamage_restats h).endures fun _ => takeDamage_bounded h
  | exert h => apply h.endures

namespace Ruleset

variable {rules : Ruleset} {b b' : Battle} {player : UInt8}

/-- A unit that settles comes into a free cell. -/
theorem settle_ok {side : Side} {u : BoardUnit} (h : settle b player side u = .ok b') :
  ∃ i board, u.cell.index? = some i ∧ side.board.Turns i none (some u) board
    ∧ b' = b.setSide player { side with board }
  := by
  rw [settle] at h
  split at h
  · next board hboard =>
    obtain rfl := Except.ok.inj h
    obtain ⟨i, hcell, hturns⟩ := Board.place?_turns hboard
    exact ⟨i, board, hcell, hturns, rfl⟩
  · cases h

/-- A unit is deployed when it settles after its card has left the hand. -/
theorem deploys_of_settle {handIndex : UInt64} {cell : Cell} {card : Card} {next : UInt32}
    {side side' : Side} {m : Battle} (hnext : Word.next b.uids.next = .ok next)
    (hside : b.side? player = some side) (htake : side.takeFromHand handIndex = .ok side')
    (hsettle : settle { b with uids := ⟨next⟩ } player side'
      (.ofCard ⟨b.uids.next⟩ player cell card) = .ok m) (line : String) :
  b.Deploys player handIndex cell card (m.record line)
  := by
  rw [Side.takeFromHand] at htake
  split at htake
  · next hplace =>
    obtain rfl := Except.ok.inj htake
    obtain ⟨i, board, hcell, hturns, rfl⟩ := settle_ok hsettle
    exact ⟨next, side, i, board, line, hnext, hside, hplace, hcell, hturns, rfl⟩
  · cases htake

/-- A unit is relocated when it settles after it has left its cell. -/
theorem relocates_of_settle {uid : Uid} {cell : Cell} {side : Side} {u : BoardUnit}
    {board : Board} {m : Battle} (hside : b.side? player = some side)
    (htake : side.board.take? uid = some (u, board))
    (hsettle : settle b player { side with board } { u with cell } = .ok m) (line : String) :
  b.Relocates player cell (m.record line)
  := by
  obtain ⟨hfind, rfl⟩ := Board.take?_eq_some.mp htake
  obtain ⟨i, hturns⟩ := Board.setUnit_turns hfind none
  obtain ⟨j, board', hcell, hturns', rfl⟩ := settle_ok hsettle
  exact ⟨side, u, i, _, j, board', line, hside, hturns, hcell, hturns', rfl⟩

theorem playUnit_ok {handIndex : UInt64} {cell : Cell} {card : Card} {r : Report}
    (h : rules.playUnit player handIndex cell card b = .ok (b', r)) :
  ∃ m, b.Deploys player handIndex cell card m
    ∧ (rules.emitAndRefresh { trigger := .onDeploy, player, source := some ⟨b.uids.next⟩ }
      .ruleMod .aura).Leads m b'
  := by
  obtain ⟨⟨uid, uids⟩, hissue, h⟩ := bind_eq_ok.mp h
  obtain ⟨next, hnext, hissue⟩ := bind_eq_ok.mp (lift_fault_eq_ok.mp hissue)
  obtain ⟨rfl, rfl⟩ := Prod.mk.inj (pure_eq_ok.mp hissue)
  obtain ⟨side, hside, h⟩ := bind_eq_ok.mp h
  obtain ⟨side', htake, h⟩ := bind_eq_ok.mp h
  obtain ⟨m, hsettle, h⟩ := bind_eq_ok.mp h
  have hside := Battle.sideOf_eq_ok.mp (lift_rejection_eq_ok.mp hside)
  exact ⟨_, deploys_of_settle hnext hside (lift_fault_eq_ok.mp htake)
    (lift_rejection_eq_ok.mp hsettle) _, r, lift_fault_eq_ok.mp h⟩

theorem moveUnit_ok {uid : Uid} {cell : Cell} {r : Report}
    (h : rules.moveUnit player uid cell b = .ok (b', r)) :
  ∃ m, b.Relocates player cell m
    ∧ (rules.emitAndRefresh
      { trigger := .onUnitMove, player, source := some uid, mover := some uid }
      .aura .ruleMod).Leads m b'
  := by
  obtain ⟨side, hside, h⟩ := bind_eq_ok.mp h
  split at h
  · cases h
  · next u board htake =>
    obtain ⟨m, hsettle, h⟩ := bind_eq_ok.mp h
    have hside := Battle.sideOf_eq_ok.mp (lift_rejection_eq_ok.mp hside)
    exact ⟨_, relocates_of_settle hside htake (lift_rejection_eq_ok.mp hsettle) _, r,
      lift_fault_eq_ok.mp h⟩

/-- A unit that strikes another damages it, and if it is on a board itself it is noted to have
attacked and the modifier that was pending is consumed. -/
theorem strike_consumes {attacker target : BoardUnit} {amount : Int32}
    (h : strike b attacker target = .ok (b', amount)) :
  ∃ hurt, target.takeDamage amount = .ok hurt
    ∧ (((b.replace hurt).find? attacker.uid = none ∧ b' = b.replace hurt)
      ∨ ∃ u modifiers, (b.replace hurt).find? attacker.uid = some u
        ∧ (u.modifiers = attacker.modifiers → modifiers = attacker.spent.modifiers)
        ∧ b' = (b.replace hurt).replace { u with hasAttacked := true, modifiers })
  := by
  obtain ⟨hurt, hhurt, h⟩ := bind_eq_ok.mp h
  dsimp only at h
  split at h
  · next u hu =>
    obtain ⟨rfl, rfl⟩ := Prod.mk.inj (pure_eq_ok.mp h)
    refine ⟨hurt, hhurt, .inr ?_⟩
    rw [BoardUnit.spent]
    cases attacker.pendingModifier? with
    | some place =>
      refine ⟨u, _, hu, ?_, rfl⟩
      intro hsame
      exact congrArg (List.modify · place _) hsame
    | none => exact ⟨u, _, hu, id, rfl⟩
  · next hnone =>
    obtain ⟨rfl, rfl⟩ := Prod.mk.inj (pure_eq_ok.mp h)
    exact ⟨hurt, hhurt, .inl ⟨hnone, rfl⟩⟩

/-- A unit that strikes another damages it, and is noted to have attacked if it is on a
board itself. -/
theorem strike_ok {attacker target : BoardUnit} {amount : Int32}
    (h : strike b attacker target = .ok (b', amount)) :
  ∃ hurt, target.takeDamage amount = .ok hurt
    ∧ (((b.replace hurt).find? attacker.uid = none ∧ b' = b.replace hurt)
      ∨ ∃ u modifiers, (b.replace hurt).find? attacker.uid = some u
        ∧ b' = (b.replace hurt).replace { u with hasAttacked := true, modifiers })
  := by
  obtain ⟨hurt, hhurt, hgone | ⟨u, modifiers, hu, -, hstruck⟩⟩ := strike_consumes h
  · exact ⟨hurt, hhurt, .inl hgone⟩
  · exact ⟨hurt, hhurt, .inr ⟨u, modifiers, hu, hstruck⟩⟩

/-- The damage of a strike is that of the attack. -/
theorem strike_amount {attacker target : BoardUnit} {amount : Int32}
    (h : strike b attacker target = .ok (b', amount)) :
  amount = attacker.damageTo target
  := by
  obtain ⟨hurt, -, h⟩ := bind_eq_ok.mp h
  dsimp only at h
  split at h
  · exact (Prod.mk.inj (pure_eq_ok.mp h)).2.symm
  · exact (Prod.mk.inj (pure_eq_ok.mp h)).2.symm

/-- In a strike no units are altered but by damage and by exerting themselves. -/
theorem strike_touches {attacker target : BoardUnit} {amount : Int32}
    (htarget : b.find? target.uid = some target)
    (h : strike b attacker target = .ok (b', amount)) :
  Touches BoardUnit.Engages b b'
  := by
  obtain ⟨hurt, hhurt, hrest⟩ := strike_ok h
  have hstruck : Touches BoardUnit.Engages b (b.replace hurt) :=
    .single (.alter htarget (.hurt hhurt))
  obtain ⟨-, rfl⟩ | ⟨u, modifiers, hu, rfl⟩ := hrest
  · apply hstruck
  · rw [← Battle.find?_uid hu] at hu
    apply hstruck.tail
    apply Touch.alter hu
    apply BoardUnit.Engages.exert
    rfl

/-- An attack is declared; it comes to nothing, or the target is struck, a line tells of the
damage, the hit is broadcast, and the boards are swept. -/
theorem attackUnit_tells {attacker target : Uid}
    (h : (rules.attackUnit player attacker target).Leads b b') :
  ∃ m, (rules.emit (.ofAttack .onAttackDeclare player attacker target)).Leads
      { b with firstAttacker := b.firstAttacker <|> some attacker } m
    ∧ (((m.find? attacker = none ∨ m.find? target = none) ∧ m.Logs b')
      ∨ ∃ att tgt m₁ amount m₂, m.find? attacker = some att
        ∧ tgt.uid = target ∧ m.find? tgt.uid = some tgt
        ∧ strike m att tgt = .ok (m₁, amount)
        ∧ (rules.emit (.ofAttack .onAttackHit player attacker target)).Leads
          (m₁.record (strikeLine m₁ player attacker target amount)) m₂
        ∧ (rules.sweep (some attacker) 1).Leads m₂ b')
  := by
  obtain ⟨r, h⟩ := h
  obtain ⟨⟨m, s⟩, hdeclare, h⟩ := bind_eq_ok.mp h
  refine ⟨m, ⟨s, hdeclare⟩, ?_⟩
  dsimp only at h
  split at h
  · next att tgt hatt htgt =>
    right
    obtain ⟨⟨m₁, amount⟩, hstrike, h⟩ := bind_eq_ok.mp h
    obtain ⟨⟨m₃, t⟩, hafter, h⟩ := bind_eq_ok.mp h
    obtain ⟨rfl, -⟩ := Prod.mk.inj (pure_eq_ok.mp h)
    obtain ⟨m₂, hhit, hsweep⟩ := leads_andThen.mp ⟨t, hafter⟩
    have huid := Battle.find?_uid htgt
    rw [← huid] at htgt
    exact ⟨att, tgt, m₁, amount, m₂, hatt, huid, htgt, hstrike, hhit, hsweep⟩
  · next hgone =>
    left
    obtain ⟨rfl, -⟩ := Prod.mk.inj (pure_eq_ok.mp h)
    refine ⟨?_, Battle.record_logs _ _⟩
    by_contra hboth
    obtain ⟨hatt, htgt⟩ := not_or.mp hboth
    obtain ⟨att, hatt⟩ := Option.ne_none_iff_exists'.mp hatt
    obtain ⟨tgt, htgt⟩ := Option.ne_none_iff_exists'.mp htgt
    apply hgone att tgt hatt htgt

/-- An attack is declared; it comes to nothing, or the target is struck, this is broadcast,
and the boards are swept. -/
theorem attackUnit_leads {attacker target : Uid}
    (h : (rules.attackUnit player attacker target).Leads b b') :
  ∃ m, (rules.emit (.ofAttack .onAttackDeclare player attacker target)).Leads
      { b with firstAttacker := b.firstAttacker <|> some attacker } m
    ∧ (((m.find? attacker = none ∨ m.find? target = none) ∧ m.Logs b')
      ∨ ∃ att tgt m₁ amount line m₂, m.find? attacker = some att
        ∧ tgt.uid = target ∧ m.find? tgt.uid = some tgt
        ∧ strike m att tgt = .ok (m₁, amount)
        ∧ (rules.emit (.ofAttack .onAttackHit player attacker target)).Leads
          (m₁.record line) m₂
        ∧ (rules.sweep (some attacker) 1).Leads m₂ b')
  := by
  obtain ⟨m, hdeclare, hannulled | ⟨att, tgt, m₁, amount, m₂, hstruck⟩⟩ := attackUnit_tells h
  · exact ⟨m, hdeclare, .inl hannulled⟩
  · exact ⟨m, hdeclare, .inr ⟨att, tgt, m₁, amount, _, m₂, hstruck⟩⟩

/-- The cost of an ability is paid without altering a unit. -/
theorem pays_touches {side : Side} (hside : b.side? player = some side) (n : Nat) (line : String)
    (lineOf : String → String) :
  Touches (fun _ _ => False) b ((side.discardUpTo n).1.foldl (fun b card => b.record (lineOf card))
    ((b.setSide player (side.discardUpTo n).2).record line))
  := by
  apply ReflTransGen.head (.shift hside (side.discardUpTo_shifts n))
  apply ReflTransGen.head (.note (Battle.record_logs _ _))
  apply ReflTransGen.single
  apply Touch.note (Battle.foldl_record_logs _ _ _)

/-- An ability is paid for without altering a unit, its scripts are run, and its use is noted. -/
theorem activate_pays {uid : Uid} {slot : UInt8} {target : Option Uid} {ability : Ability}
    {r : Report} (h : rules.activate player uid slot target ability b = .ok (b', r)) :
  ∃ m m', Touches (fun _ _ => False) b m
    ∧ (rules.runActivation uid ability
      { trigger := .activate, player, source := some uid, target }).Leads m m'
    ∧ m'.Uses player uid slot ability b'
  := by
  obtain ⟨side, hside, h⟩ := bind_eq_ok.mp h
  obtain ⟨⟨m', s⟩, hrun, h⟩ := bind_eq_ok.mp h
  obtain ⟨side', hside', h⟩ := bind_eq_ok.mp h
  have hside := Battle.sideOf_eq_ok.mp (lift_rejection_eq_ok.mp hside)
  have hside' := Battle.sideOf_eq_ok.mp (lift_rejection_eq_ok.mp hside')
  refine ⟨_, m', ?_, ⟨s, lift_fault_eq_ok.mp hrun⟩, ?_⟩
  · apply pays_touches hside
  · refine ⟨side', _, hside', rfl, ?_⟩
    dsimp only at h
    split at h
    · next u hu =>
      right
      obtain ⟨rfl, -⟩ := Prod.mk.inj (pure_eq_ok.mp h)
      exact ⟨u, hu, rfl⟩
    · next hnone =>
      left
      obtain ⟨rfl, -⟩ := Prod.mk.inj (pure_eq_ok.mp h)
      exact ⟨hnone, rfl⟩

/-- An ability is paid for, its scripts are run, and its use is noted. -/
theorem activate_ok {uid : Uid} {slot : UInt8} {target : Option Uid} {ability : Ability}
    {r : Report} (h : rules.activate player uid slot target ability b = .ok (b', r)) :
  ∃ m m', Touches (BoardUnit.Spares fun _ => False) b m
    ∧ (rules.runActivation uid ability
      { trigger := .activate, player, source := some uid, target }).Leads m m'
    ∧ m'.Uses player uid slot ability b'
  := by
  obtain ⟨m, m', hpaid, hrest⟩ := activate_pays h
  use m, m', hpaid.lift id fun _ _ htouch => htouch.mono fun _ _ => False.elim

theorem nextTurn_passesTurn (h : nextTurn b = .ok b') :
  b.PassesTurn b'
  := by
  obtain ⟨turn, hturn, h⟩ := bind_eq_ok.mp h
  obtain rfl := pure_eq_ok.mp h
  exact ⟨hturn, rfl, rfl, rfl, rfl, rfl⟩

/-- The units are changed for the end of the turn, the boards are swept, and the next turn
begins. -/
theorem endTurn_leads (h : rules.endTurn.Leads b b') :
  ∃ m₁ m₂ m₃,
    ({ b with side0.used := ∅, side1.used := ∅ }).changeAll BoardUnit.endCycle = .ok m₁
    ∧ (rules.sweep none 1).Leads m₁ m₂
    ∧ m₂.PassesTurn m₃
    ∧ (rules.emitAndRefresh { trigger := .turnStartSelf, player := m₃.activePlayer }
      .ruleMod .aura).Leads m₃ b'
  := by
  obtain ⟨r, h⟩ := h
  obtain ⟨⟨m₂, s⟩, hend, h⟩ := bind_eq_ok.mp h
  obtain ⟨m₁, hchange, hsweep⟩ := bind_eq_ok.mp hend
  obtain ⟨m₃, hnext, h⟩ := bind_eq_ok.mp h
  obtain ⟨⟨m₄, t⟩, hrest, h⟩ := bind_eq_ok.mp h
  obtain ⟨rfl, -⟩ := Prod.mk.inj (pure_eq_ok.mp h)
  exact ⟨m₁, m₂, m₃, hchange, ⟨s, hsweep⟩, nextTurn_passesTurn hnext, t, hrest⟩

end Ruleset

end CardBattle
