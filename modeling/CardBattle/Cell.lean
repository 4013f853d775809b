import CardBattle.Json.Codec

/-!
# Cells

A board has two lanes of three columns.  A cell is named by its lane and its column; only
the columns 0 to 2 are on the board, but a cell may name any other column too.
-/

namespace CardBattle

/-- The lanes of a board. -/
inductive Lane
  | front
  | back
deriving DecidableEq

namespace Lane

/-- The name of a lane, in JSON and in the log. -/
def name : Lane → String
  | .front => "front"
  | .back => "back"

/-- The lane of a name. -/
def ofName? : String → Option Lane
  | "front" => some .front
  | "back" => some .back
  | _ => none

instance : Json.Codec Lane := .ofNames name ofName?

/-- The front lane comes before the back lane. -/
def rank : Lane → Nat
  | .front => 0
  | .back => 1

end Lane

/-- The number of columns of a lane. -/
def columns : Nat := 3

/-- The number of cells of a board. -/
def boardSize : Nat := 2 * columns

/-- A place on a board. -/
structure Cell where
  lane : Lane
  column : UInt64
deriving DecidableEq

namespace Cell

/-- The text shown for a cell. -/
def text (cell : Cell) : String :=
  cell.lane.name ++ "[" ++ toString cell.column ++ "]"

/-- The number of a cell in scan order: front lane first, columns from left to right.
A cell off the board has none. -/
def index? (cell : Cell) : Option Nat :=
  if cell.column.toNat < columns then some (cell.lane.rank * columns + cell.column.toNat)
  else none

/-- The cells of a board in scan order. -/
def all : List Cell :=
  [⟨.front, 0⟩, ⟨.front, 1⟩, ⟨.front, 2⟩, ⟨.back, 0⟩, ⟨.back, 1⟩, ⟨.back, 2⟩]

/-- Whether the cells touch: columns side by side in one lane, or one column in both
lanes. -/
def touches (a b : Cell) : Bool :=
  if a.lane = b.lane then
    a.column.toNat + 1 = b.column.toNat || b.column.toNat + 1 = a.column.toNat
  else a.column = b.column

end Cell

end CardBattle
