import CardBattle.Battle.Basic

/-!
# Integrity

A battle read from outside may be corrupt: a unit may stand in another cell than it names,
on the wrong board, under a uid that is taken or was never issued, or with vitality out of
its range.  `Battle.corruption?` finds the first such fault in scan order, and before the units
of a player are scanned it counts them.
-/

namespace CardBattle

/-- What is wrong with a corrupt battle. -/
inductive Corruption
  | invalidActivePlayer (player : UInt8)
  | cellMismatch (uid : Uid)
  | wrongBoard (uid : Uid)
  | duplicateUid (uid : Uid)
  | unknownUid (uid : Uid)
  | vitalityOutOfRange (uid : Uid) (vitality vitalityMax : Int32)
  | tooManyUnits (player : UInt8) (count : UInt64)
deriving DecidableEq

namespace Corruption

/-- The name of the kind of corruption. -/
def kind : Corruption → String
  | .invalidActivePlayer _ => "InvalidActivePlayer"
  | .cellMismatch _ => "CellMismatch"
  | .wrongBoard _ => "WrongBoard"
  | .duplicateUid _ => "DuplicateUid"
  | .unknownUid _ => "UnknownUid"
  | .vitalityOutOfRange _ _ _ => "VitalityOutOfRange"
  | .tooManyUnits _ _ => "TooManyUnits"

/-- The text shown for a corruption. -/
def message : Corruption → String
  | .invalidActivePlayer player =>
      "active player " ++ toString player ++ " is out of range"
  | .cellMismatch uid =>
      "unit " ++ uid.text ++ " sits in a cell that does not match its coordinates"
  | .wrongBoard uid =>
      "unit " ++ uid.text ++ " is on the board of a player other than its owner"
  | .duplicateUid uid => "uid " ++ uid.text ++ " appears more than once"
  | .unknownUid uid => "uid " ++ uid.text ++ " was never issued by this session"
  | .vitalityOutOfRange uid vitality vitalityMax =>
      "unit " ++ uid.text ++ " has vitality " ++ toString vitality ++ "/"
        ++ toString vitalityMax
  | .tooManyUnits player count =>
      "player " ++ toString player ++ " has " ++ toString count ++ " units on board"

open Json (Kinds encode)

/-- The kinds of corruption. -/
def kinds : Kinds where
  names := ["InvalidActivePlayer", "CellMismatch", "WrongBoard", "DuplicateUid", "UnknownUid",
    "VitalityOutOfRange", "TooManyUnits"]

instance : Json.Codec Corruption where
  encode c := .tagged "type" c.kind <| match c with
    | .invalidActivePlayer player => [("player", encode player)]
    | .cellMismatch uid => [("uid", encode uid)]
    | .wrongBoard uid => [("uid", encode uid)]
    | .duplicateUid uid => [("uid", encode uid)]
    | .unknownUid uid => [("uid", encode uid)]
    | .vitalityOutOfRange uid vitality vitalityMax =>
        [("uid", encode uid), ("vit", encode vitality), ("vit_max", encode vitalityMax)]
    | .tooManyUnits player count => [("player", encode player), ("count", encode count)]
  decode input := input.readTagged "type" kinds fun kind fields => match kind with
    | "InvalidActivePlayer" => .invalidActivePlayer <$> fields.required "player"
    | "CellMismatch" => .cellMismatch <$> fields.required "uid"
    | "WrongBoard" => .wrongBoard <$> fields.required "uid"
    | "DuplicateUid" => .duplicateUid <$> fields.required "uid"
    | "UnknownUid" => .unknownUid <$> fields.required "uid"
    | "VitalityOutOfRange" => .vitalityOutOfRange <$> fields.required "uid"
        <*> fields.required "vit" <*> fields.required "vit_max"
    | "TooManyUnits" => .tooManyUnits <$> fields.required "player" <*> fields.required "count"
    | _ => fields.missing

end Corruption

/-- The number of units that a player can have and no more. -/
def maxBoardUnits : Nat := 6

/-- A unit together with the board and the cell it stands in. -/
structure Placement where
  player : UInt8
  cell : Cell
  unit : BoardUnit

namespace Battle

/-- The placements on the board of a player in scan order. -/
def placementsOf (player : UInt8) (board : Board) : List Placement :=
  (Cell.all.zip board.cells).filterMap fun (cell, content) =>
    content.map fun u => ⟨player, cell, u⟩

/-- The placements on both boards in scan order. -/
def placements (b : Battle) : List Placement :=
  placementsOf 0 b.side0.board ++ placementsOf 1 b.side1.board

/-- What is wrong with a placement, behind units of the uids `seen`. -/
def placementFault? (counter : UidCounter) (seen : List Uid) (p : Placement) :
    Option Corruption :=
  let u := p.unit
  if u.cell ≠ p.cell then some (.cellMismatch u.uid)
  else if u.owner ≠ p.player then some (.wrongBoard u.uid)
  else if u.uid ∈ seen then some (.duplicateUid u.uid)
  else if !counter.hasIssued u.uid then some (.unknownUid u.uid)
  else if u.vitality ≤ 0 ∨ u.vitalityMax < u.vitality then
    some (.vitalityOutOfRange u.uid u.vitality u.vitalityMax)
  else none

/-- What is wrong with the first faulty one of some placements, behind units of the uids
`seen`. -/
def firstFault? (counter : UidCounter) (seen : List Uid) :
    List Placement → Option Corruption
  | [] => none
  | p :: rest =>
      match placementFault? counter seen p with
      | some c => some c
      | none => firstFault? counter (p.unit.uid :: seen) rest

/-- What is wrong with the board of a player, behind units of the uids `seen`. -/
def boardFault? (counter : UidCounter) (seen : List Uid) (player : UInt8) (board : Board) :
    Option Corruption :=
  let count := board.units.length
  if maxBoardUnits < count then some (.tooManyUnits player (UInt64.ofNat count))
  else firstFault? counter seen (placementsOf player board)

/-- What is wrong with the battle, if anything is. -/
def corruption? (b : Battle) : Option Corruption :=
  if 1 < b.activePlayer then some (.invalidActivePlayer b.activePlayer)
  else
    boardFault? b.uids [] 0 b.side0.board
      <|> boardFault? b.uids (b.side0.board.units.map BoardUnit.uid) 1 b.side1.board

end Battle

end CardBattle
