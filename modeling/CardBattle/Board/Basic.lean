import CardBattle.BoardUnit.Basic

/-!
# Boards

A board is the list of its six cells in scan order, each of which may be taken by a unit.
A unit also carries the name of a cell, which is that of the cell it stands in unless the
board was read from a corrupt state.  Where a unit is looked for by its uid, the first one
in scan order is meant.
-/

namespace CardBattle

/-- The cells of a player, front lane first, columns from left to right. -/
structure Board where
  cells : List (Option BoardUnit)
  length_eq : cells.length = boardSize
deriving DecidableEq

/-- The cells with those of the first unit of the given uid holding `new` instead. -/
def setFirst (uid : Uid) (new : Option BoardUnit) :
    List (Option BoardUnit) → List (Option BoardUnit)
  | [] => []
  | none :: rest => none :: setFirst uid new rest
  | some u :: rest => if u.uid = uid then new :: rest else some u :: setFirst uid new rest

@[simp]
theorem length_setFirst (uid : Uid) (new : Option BoardUnit) (cells : List (Option BoardUnit)) :
  (setFirst uid new cells).length = cells.length
  := by
  fun_induction setFirst uid new cells <;> simp_all

/-- The cells with all units changed by `f`, in order. -/
def changeUnits (f : BoardUnit → Except Fault BoardUnit) :
    List (Option BoardUnit) → Except Fault (List (Option BoardUnit))
  | [] => .ok []
  | none :: rest => do return none :: (← changeUnits f rest)
  | some u :: rest => do
      let u ← f u
      return some u :: (← changeUnits f rest)

theorem length_changeUnits {f : BoardUnit → Except Fault BoardUnit}
    {cells changed : List (Option BoardUnit)} (h : changeUnits f cells = .ok changed) :
  changed.length = cells.length
  := by
  induction cells generalizing changed with
  | nil => cases h; rfl
  | cons cell rest ih =>
    cases cell with
    | none =>
      cases hrest : changeUnits f rest with
      | error e => simp [changeUnits, hrest, bind, Except.bind] at h
      | ok l =>
        simp only [changeUnits, hrest] at h
        cases h
        simp [ih hrest]
    | some u =>
      cases hu : f u with
      | error e => simp [changeUnits, hu, bind, Except.bind] at h
      | ok u' =>
        cases hrest : changeUnits f rest with
        | error e => simp [changeUnits, hu, hrest, bind, Except.bind] at h
        | ok l =>
          simp only [changeUnits, hu, hrest] at h
          cases h
          simp [ih hrest]

namespace Board

/-- The board without units. -/
def empty : Board := ⟨List.replicate boardSize none, rfl⟩

instance : EmptyCollection Board := ⟨empty⟩

instance : Inhabited Board := ⟨empty⟩

/-- The units in scan order. -/
def units (b : Board) : List BoardUnit :=
  b.cells.filterMap id

/-- The cells of a lane, from left to right. -/
def laneCells (b : Board) : Lane → List (Option BoardUnit)
  | .front => b.cells.take columns
  | .back => b.cells.drop columns

/-- The units in the cells of a lane, from left to right. -/
def laneUnits (b : Board) (lane : Lane) : List BoardUnit :=
  (b.laneCells lane).filterMap id

/-- What a cell holds; a cell off the board is none. -/
def content? (b : Board) (cell : Cell) : Option (Option BoardUnit) :=
  cell.index?.bind (b.cells[·]?)

/-- The unit in a cell. -/
def unitAt? (b : Board) (cell : Cell) : Option BoardUnit :=
  (b.content? cell).join

/-- Whether the cell is on the board and holds no unit. -/
def isFree (b : Board) (cell : Cell) : Bool :=
  b.content? cell = some none

/-- The free cells in scan order. -/
def freeCells (b : Board) : List Cell :=
  Cell.all.filter b.isFree

/-- The unit with a uid. -/
def find? (b : Board) (uid : Uid) : Option BoardUnit :=
  b.units.find? (fun u => u.uid = uid)

/-- The board with the cell of the unit of the given uid holding `new` instead. -/
def setUnit (b : Board) (uid : Uid) (new : Option BoardUnit) : Board :=
  ⟨setFirst uid new b.cells, by rw [length_setFirst, b.length_eq]⟩

/-- The unit with a uid, and the board without it. -/
def take? (b : Board) (uid : Uid) : Option (BoardUnit × Board) :=
  (b.find? uid).map fun u => (u, b.setUnit uid none)

/-- The board with a unit in the cell that the unit names, whatever was in it. -/
def put (b : Board) (u : BoardUnit) : Except Fault Board :=
  match u.cell.index? with
  | some i => .ok ⟨b.cells.set i (some u), by rw [List.length_set, b.length_eq]⟩
  | none => .error (.noSuchColumn columns u.cell.column)

/-- The board with a unit in the cell that the unit names, if that is free. -/
def place? (b : Board) (u : BoardUnit) : Option Board :=
  if b.isFree u.cell then (b.put u).toOption else none

/-- The board with all units changed by `f`, in scan order. -/
def changeAll (b : Board) (f : BoardUnit → Except Fault BoardUnit) : Except Fault Board :=
  match h : changeUnits f b.cells with
  | .ok cells => .ok ⟨cells, by rw [length_changeUnits h, b.length_eq]⟩
  | .error fault => .error fault

end Board

end CardBattle
