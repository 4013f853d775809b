import CardBattle.Catalog
import CardBattle.Side

/-!
# Battles

The state of a battle between the players 0 and 1.  The units of both boards are scanned
in one order: those of player 0 first.  Where a unit is looked for by its uid, the first one
in that order is meant.
-/

namespace CardBattle

/-- The state of a battle. -/
structure Battle where
  version : String
  seed : UInt64
  turn : UInt32
  activePlayer : UInt8
  side0 : Side
  side1 : Side
  log : List String
  /-- The unit that was the first to attack in this turn. -/
  firstAttacker : Option Uid
  uids : UidCounter
deriving DecidableEq

/-- The opponent of a player. -/
def opponentOf (player : UInt8) : UInt8 :=
  if player = 0 then 1 else 0

namespace Battle

/-- The battle at its beginning, with no cards on either side. -/
def start (seed : UInt64) : Battle :=
  { version := "0.1", seed, turn := 1, activePlayer := 0, side0 := {}, side1 := {},
    log := [], firstAttacker := none, uids := {} }

/-- The side of a player; only the players 0 and 1 have one. -/
def side? (b : Battle) (player : UInt8) : Option Side :=
  if player = 0 then some b.side0
  else if player = 1 then some b.side1
  else none

/-- The battle with another side of a player. -/
def setSide (b : Battle) (player : UInt8) (s : Side) : Battle :=
  if player = 0 then { b with side0 := s }
  else if player = 1 then { b with side1 := s }
  else b

/-- The battle with another board of a player. -/
def setBoard (b : Battle) (player : UInt8) (board : Board) : Battle :=
  if player = 0 then { b with side0.board := board }
  else if player = 1 then { b with side1.board := board }
  else b

/-- The units of both boards in scan order. -/
def units (b : Battle) : List BoardUnit :=
  b.side0.board.units ++ b.side1.board.units

/-- The unit with a uid. -/
def find? (b : Battle) (uid : Uid) : Option BoardUnit :=
  b.units.find? (fun u => u.uid = uid)

/-- The battle with the unit of the same uid replaced. -/
def replace (b : Battle) (u : BoardUnit) : Battle :=
  match b.side0.board.find? u.uid with
  | some _ => { b with side0.board := b.side0.board.setUnit u.uid (some u) }
  | none => { b with side1.board := b.side1.board.setUnit u.uid (some u) }

/-- The battle with all units changed by `f`, in scan order. -/
def changeAll (b : Battle) (f : BoardUnit → Except Fault BoardUnit) : Except Fault Battle := do
  let board0 ← b.side0.board.changeAll f
  let board1 ← b.side1.board.changeAll f
  return { b with side0.board := board0, side1.board := board1 }

/-- The battle with a line added to its log. -/
def record (b : Battle) (line : String) : Battle :=
  { b with log := b.log ++ [line] }

/-- The last lines of the log, at most `count` of them. -/
def logTail (b : Battle) (count : Nat) : List String :=
  b.log.drop (b.log.length - count)

/-- The side with a hand dealt from a list of cards, unless it has one already. -/
def dealTo (s : Side) (cards : List String) : Side :=
  if s.hand.isEmpty then { s with hand := cards } else s

/-- The battle with a hand for every player who has none: the first unit cards of the
catalog for player 0, the next ones for player 1. -/
def deal (b : Battle) (catalog : Catalog) (handSize : Nat) : Battle :=
  let ids := catalog.unitIds
  { b with
    side0 := dealTo b.side0 (ids.take handSize)
    side1 := dealTo b.side1 ((ids.drop handSize).take handSize) }

end Battle

end CardBattle
