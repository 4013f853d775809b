import CardBattle.Battle.Basic
import CardBattle.Report

/-!
# Changes

A change turns a battle into another and reports what came of it, or stops with a fault.
Changes are put together by doing one after another; their reports are added up.
-/

namespace CardBattle

/-- A way to change a battle. -/
abbrev Change := Battle → Except Fault (Battle × Report)

namespace Change

/-- The change that leaves the battle as it is. -/
def done : Change := fun b => .ok (b, {})

/-- The change that leaves the battle as it is, with a report. -/
def report (r : Report) : Change := fun b => .ok (b, r)

/-- The change of a step that was run and leaves the battle as it is. -/
def ran : Change := report .ran

/-- The change of a step that was skipped. -/
def skip : Change := report .skipped

/-- One change after another. -/
def andThen (first second : Change) : Change := fun b => do
  let (b, r) ← first b
  let (b, s) ← second b
  return (b, r ++ s)

/-- The changes for the elements of a list, one after another. -/
def forEach {α : Type} (f : α → Change) : List α → Change
  | [] => done
  | a :: rest => (f a).andThen (forEach f rest)

end Change

/-- The battle with the units of the given uids changed by `f` one after another; a uid
without a unit is passed over. -/
def Battle.changeEach (f : BoardUnit → Except Fault BoardUnit) :
    List Uid → Battle → Except Fault Battle
  | [], b => .ok b
  | uid :: rest, b =>
      match b.find? uid with
      | some u => do changeEach f rest (b.replace (← f u))
      | none => changeEach f rest b

end CardBattle
