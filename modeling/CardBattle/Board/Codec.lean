import CardBattle.Board.Basic
import CardBattle.BoardUnit.Codec

/-!
# Boards in JSON

A board is an object with its two lanes, each a list of exactly three cells.
-/

namespace CardBattle

open Json (Input Reading ReadFault encode nextItem)

/-- The cells of a lane. -/
structure LaneCells where
  cells : List (Option BoardUnit)
  length_eq : cells.length = columns

/-- The cells of a lane, of which there must be three. -/
def LaneCells.ofInput (input : Input) : Except ReadFault LaneCells :=
  input.readItems do
    let left ← nextItem
    let middle ← nextItem
    let right ← nextItem
    return ⟨[left, middle, right], rfl⟩

/-- The board of two lanes. -/
def Board.ofLanes (front back : LaneCells) : Board :=
  ⟨front.cells ++ back.cells, by
    rw [List.length_append, front.length_eq, back.length_eq]
    rfl⟩

instance : Json.Codec Board where
  encode b := .object [
    ("front", encode (b.laneCells .front)), ("back", encode (b.laneCells .back))]
  decode input := input.readObject fun fields =>
    let lane name : Reading LaneCells := fields.requiredAs [name] LaneCells.ofInput
    Board.ofLanes <$> lane "front" <*> lane "back"

end CardBattle
