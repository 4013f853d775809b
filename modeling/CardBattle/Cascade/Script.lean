import CardBattle.Change
import CardBattle.Judgement
import CardBattle.Sampling

/-!
# Running scripts

A script is run step by step by a unit, its actor, on an event.  A step that names a unit
which is not on a board is skipped.  A step that can take the last vitality of a unit ends
with a sweep: the units without vitality leave the boards one by one, and each departure is
broadcast before the next.

How an event is broadcast is a parameter of this module, `emit`; the broadcast runs scripts
in turn.
-/

namespace CardBattle

/-! ### Departures -/

/-- The first unit without vitality taken off the board of its owner: the owner, the unit,
and the battle with its card discarded and a line in the log. -/
def Battle.removeFallen? (b : Battle) : Option (UInt8 × BoardUnit × Battle) := do
  let fallen ← b.units.find? (fun u => !u.isAlive)
  let side ← b.side? fallen.owner
  let (gone, board) ← side.board.take? fallen.uid
  let side := { side with board, discard := side.discard ++ [gone.cardId] }
  let line := "✖ " ++ fallen.uid.text ++ " eliminata → discard"
  return (fallen.owner, gone, (b.setSide fallen.owner side).record line)

/-- The event of a trigger on the elimination of a unit. -/
def Event.ofElimination (trigger : Trigger) (owner : UInt8) (gone : BoardUnit)
    (source : Option Uid) (depth : UInt32) : Event :=
  { trigger, player := owner, source, target := some gone.uid, eliminated := some gone, depth }

/-- At most `n` units without vitality leave the boards, and each departure is broadcast. -/
def sweepUpTo (emit : Event → Change) (source : Option Uid) (depth : UInt32) : Nat → Change
  | 0 => .done
  | n + 1 => fun b =>
      match b.removeFallen? with
      | none => Change.done b
      | some (owner, gone, b) =>
          let announce trigger := emit (.ofElimination trigger owner gone source depth)
          ((Change.forEach announce Trigger.eliminations).andThen
            (sweepUpTo emit source depth n)) b

/-- All units without vitality leave the boards.  As many departures are enough as there
are units, since no unit enters a board in between. -/
def sweepWith (emit : Event → Change) (source : Option Uid) (depth : UInt32) : Change :=
  fun b => sweepUpTo emit source depth b.units.length b

/-! ### Steps -/

/-- A number with its sign, which zero has too. -/
def signedText (n : Int32) : String :=
  if n < 0 then toString n else "+" ++ toString n

/-- What the log calls a player. -/
def playerText (player : UInt8) : String :=
  "P" ++ toString player

/-- The seed of the sample that a peek takes. -/
def Battle.peekSeed (b : Battle) : UInt64 :=
  b.seed ^^^ (b.turn.toUInt64 <<< 32) ^^^ UInt64.ofNat b.log.length

/-- The names of the cards that a peek at a hand shows. -/
def Ruleset.peek (rules : Ruleset) (seed : UInt64) (hand : List String) (count : Nat) :
    List String :=
  (Sampling.sample seed hand.length count).filterMap fun place =>
    hand[place]?.map fun id => ((rules.catalog.find? id).map Card.name).getD id

/-- Puts a unit back on the board of a player, into the cell that the unit names. -/
def Battle.putBack (b : Battle) (player : UInt8) (board : Board) (u : BoardUnit) :
    Except Fault Battle := do
  return b.setBoard player (← board.put u)

section

variable (rules : Ruleset) (emit : Event → Change) (actor : BoardUnit) (event : Event)

/-- The change that `act` makes for the unit named by a reference; without such a unit the
step is skipped. -/
def onUnit (ref : UnitRef) (act : BoardUnit → Change) : Change := fun b =>
  match ref.resolve? b actor event with
  | some u => act u b
  | none => Change.skip b

/-- The step that replaces a unit and adds a line to the log. -/
def replaceWith (u : BoardUnit) (line : String) : Change := fun b =>
  Change.ran ((b.replace u).record line)

/-- The sweep after a step of the script. -/
def sweepAfter : Change := fun b => do
  sweepWith emit (some actor.uid) (← event.innerDepth) b

/-- The step that makes a unit lose vitality. -/
def stepDamage (amount : Int32) (u : BoardUnit) : Change := fun b => do
  let hurt ← u.takeDamage amount
  let line := rules.label hurt ++ " subisce " ++ toString amount ++ " danni"
  ((replaceWith hurt line).andThen (sweepAfter emit actor event)) b

/-- The step that heals a unit. -/
def stepHeal (amount : Int32) (u : BoardUnit) : Change := fun b => do
  let (healed, gain) ← u.heal amount
  replaceWith healed (rules.label healed ++ " recupera " ++ toString gain ++ " VIT") b

/-- The step that heals all units a filter admits. -/
def stepHealAllies (amount : Int32) (filter : UnitFilter) : Change := fun b => do
  let uids := (filter.select rules b actor).map BoardUnit.uid
  let b ← b.changeEach (fun u => do return (← u.heal amount).1) uids
  let line := rules.label actor ++ " cura gli alleati di " ++ toString amount
  Change.ran (b.record line)

/-- The step that changes a statistic of a unit.  Auras leave no line in the log. -/
def stepModifyStat (stat : Stat) (delta : Int32) (duration : Duration) (u : BoardUnit) :
    Change := fun b => do
  let changed ← u.addBuff stat delta duration
  let line := rules.label changed ++ " " ++ stat.label ++ " " ++ signedText delta
  let b := b.replace changed
  let b := if duration = .aura then b else b.record line
  if stat = .vitality ∧ delta < 0 then
    (Change.ran.andThen (sweepAfter emit actor event)) b
  else Change.ran b

/-- The step that puts a unit into a status, unless the unit is immune to it. -/
def stepApplyStatus (status : String) (detail : Option String) (u : BoardUnit) : Change :=
  if u.isImmuneTo status then fun b =>
    Change.ran (b.record (rules.label u ++ " è immune a " ++ status))
  else if u.hasStatus status then Change.ran
  else
    replaceWith { u with statuses := u.statuses ++ [⟨status, detail⟩] }
      (rules.label u ++ " ottiene " ++ status)

/-- The step that removes a status of a unit. -/
def stepRemoveStatus (status : String) (u : BoardUnit) : Change :=
  if u.hasStatus status then
    replaceWith { u with statuses := u.statuses.filter fun s => !s.isNamed status }
      (rules.label u ++ " perde " ++ status)
  else Change.ran

/-- The step that removes the first negative status of a unit. -/
def stepRemoveNegativeStatus (u : BoardUnit) : Change :=
  match u.removeNegativeStatus? with
  | some (cured, status) => replaceWith cured (rules.label cured ++ " perde " ++ status.name)
  | none => Change.ran

/-- The step that prevents the active abilities of a unit. -/
def stepPreventActive (cycles : UInt32) (u : BoardUnit) : Change := fun b =>
  let first := Word.nearestUnsigned (b.turn.toNat + cycles.toNat)
  let free := Word.nearestUnsigned (first.toNat + 1)
  replaceWith { u with preventedUntil := some free }
    (rules.label u ++ " non può usare abilità attive fino al turno " ++ toString free) b

/-- The step that makes all units a filter admits immune to statuses. -/
def stepGrantImmunity (filter : UnitFilter) (statuses : List String) : Change := fun b => do
  let uids := (filter.select rules b actor).map BoardUnit.uid
  let b ← b.changeEach (fun u => .ok (statuses.foldl BoardUnit.addImmunity u)) uids
  Change.ran b

/-- The step that changes nothing but a unit, and leaves no line in the log. -/
def stepQuietly (f : BoardUnit → BoardUnit) (u : BoardUnit) : Change := fun b =>
  Change.ran (b.replace (f u))

/-- The step that draws cards for the owner of the actor. -/
def stepDraw (count : UInt32) : Change := fun b =>
  match b.side? actor.owner with
  | none => Change.skip b
  | some side =>
      let (cards, side) := side.drawUpTo count.toNat
      let line := playerText actor.owner ++ " pesca " ++ toString cards.length ++ " carte"
      Change.ran ((b.setSide actor.owner side).record line)

/-- The step that discards cards of the owner of the actor. -/
def stepDiscard (count : UInt32) : Change := fun b =>
  match b.side? actor.owner with
  | none => Change.skip b
  | some side =>
      let (cards, side) := side.discardUpTo count.toNat
      let line card := playerText actor.owner ++ " scarta " ++ card
      Change.ran (cards.foldl (fun b card => b.record (line card))
        (b.setSide actor.owner side))

/-- The step that shows some cards of the hand of the opponent in the log. -/
def stepPeekHand (count : UInt32) : Change := fun b =>
  let opponent := opponentOf actor.owner
  match b.side? opponent with
  | none => Change.skip b
  | some side =>
      let names := rules.peek b.peekSeed side.hand count.toNat
      let line := playerText actor.owner ++ " sbircia la mano di " ++ playerText opponent
        ++ ": " ++ ", ".intercalate names
      Change.ran (b.record line)

/-- Exchanges the cells of two units of a player, the first of which has been taken off the
board already.  If the other is not on that board, the first one goes back. -/
def exchange (player : UInt8) (a : BoardUnit) (other : Uid) (board : Board) : Change := fun b =>
  match board.take? other with
  | none => do Change.skip (← b.putBack player board a)
  | some (c, board) => do
      let a' := { a with cell := c.cell }
      let c' := { c with cell := a.cell }
      let board ← board.put a'
      let b ← b.putBack player board c'
      let line := rules.label a ++ " e " ++ rules.label c ++ " si scambiano di posto"
      Change.ran (b.record line)

/-- The step that exchanges two units on one board. -/
def stepSwap (first second : UnitRef) : Change := fun b =>
  match first.resolve? b actor event, second.resolve? b actor event with
  | some a, some c =>
      if a.uid = c.uid ∨ a.owner ≠ c.owner then Change.skip b
      else match b.side? a.owner with
        | none => Change.skip b
        | some side =>
            match side.board.take? a.uid with
            | none => Change.skip b
            | some (taken, board) => exchange rules a.owner taken c.uid board b
  | _, _ => Change.skip b

/-- The step that leaves a choice to the owner of the actor. -/
def stepWait (choice : PendingChoice) (line : String) : Change := fun b =>
  Change.report (.ran ++ .waiting choice) (b.record (playerText actor.owner ++ line))

mutual

/-- Runs one step. -/
def runStep : Step → Change
  | .damage whom amount => onUnit actor event whom (stepDamage rules emit actor event amount)
  | .heal whom amount => onUnit actor event whom (stepHeal rules amount)
  | .healAllies amount filter => stepHealAllies rules actor amount filter
  | .modifyStat whom stat delta duration =>
      onUnit actor event whom (stepModifyStat rules emit actor event stat delta duration)
  | .applyStatus whom status detail =>
      onUnit actor event whom (stepApplyStatus rules status detail)
  | .removeStatus whom status => onUnit actor event whom (stepRemoveStatus rules status)
  | .removeNegativeStatus whom => onUnit actor event whom (stepRemoveNegativeStatus rules)
  | .preventActive whom cycles => onUnit actor event whom (stepPreventActive rules cycles)
  | .grantImmunity filter statuses => stepGrantImmunity rules actor filter statuses
  | .setFlag whom flag value =>
      onUnit actor event whom (stepQuietly fun u =>
        { u with flags := u.flags.insert flag value })
  | .boostAttack whom boost =>
      onUnit actor event whom fun u =>
        replaceWith { u with modifiers := u.modifiers ++ [{ toBoost := boost }] }
          (rules.label u ++ " prepara un attacco potenziato")
  | .draw count => stepDraw actor count
  | .discard count => stepDiscard actor count
  | .peekHand count => stepPeekHand rules actor count
  | .swapPositions first second => stepSwap rules actor event first second
  | .grantReach whom reach =>
      onUnit actor event whom (stepQuietly fun u => { u with reach := some reach })
  | .grantUntargetable whom =>
      onUnit actor event whom (stepQuietly fun u => { u with isUntargetable := true })
  | .branch test thenSteps elseSteps => fun b =>
      if test.holds rules b actor event then
        (Change.ran.andThen (runScript thenSteps)) b
      else (Change.ran.andThen (runScript elseSteps)) b
  | .revealHandCard count =>
      stepWait actor (.revealHandCard actor.owner count)
        (" rivela " ++ toString count ++ " carte (in attesa)")
  | .returnHandCard count =>
      stepWait actor (.returnHandCard actor.owner count)
        (" rimette " ++ toString count ++ " carte nel mazzo (in attesa)")
  | .unknown => .report .ignored

/-- Runs the steps of a script one after another. -/
def runScript : List Step → Change
  | [] => .done
  | step :: rest => (runStep step).andThen (runScript rest)

end

end

end CardBattle
