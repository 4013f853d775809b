import CardBattle.Proofs.Change.Composition
import Mathlib.Data.List.Forall2
import Mathlib.Tactic.Use

/-!
# Boards that differ in one cell

Taking a unit off a board, putting one onto it and replacing one all change what a single
cell holds (`Board.Turns`).  The units before and after such a change are the same but for
the unit that was in the cell and the one that is.

A board is arranged for a player when every unit stands in the cell that it names and
belongs to the player.
-/

namespace CardBattle

theorem filterMap_id_cons {α : Type} (cell : Option α) (rest : List (Option α)) :
  (cell :: rest).filterMap id = cell.toList ++ rest.filterMap id
  := by
  cases cell with
  | none => rfl
  | some a => rfl

/-- The elements that are left when one place of a list changes. -/
theorem filterMap_set {α : Type} {cells : List (Option α)} {i : Nat} {old : Option α}
    (h : cells[i]? = some old) :
  ∃ l r, cells.filterMap id = l ++ old.toList ++ r
    ∧ ∀ new, (cells.set i new).filterMap id = l ++ new.toList ++ r
  := by
  induction cells generalizing i with
  | nil => simp at h
  | cons cell rest ih =>
    cases i with
    | zero =>
      obtain rfl : cell = old := by simpa using h
      use [], rest.filterMap id
      constructor
      · apply filterMap_id_cons
      · intro new
        apply filterMap_id_cons
    | succ i =>
      obtain ⟨l, r, hrest, hset⟩ := ih (by simpa using h)
      use cell.toList ++ l, r
      constructor
      · rw [filterMap_id_cons, hrest]
        simp only [List.append_assoc]
      · intro new
        rw [List.set_cons_succ, filterMap_id_cons, hset]
        simp only [List.append_assoc]

/-- The first unit of a uid stands in a cell, and this is the one that is set. -/
theorem setFirst_eq_set {uid : Uid} {cells : List (Option BoardUnit)} {u : BoardUnit}
    (h : (cells.filterMap id).find? (fun v => v.uid = uid) = some u) :
  ∃ i, cells[i]? = some (some u) ∧ ∀ new, setFirst uid new cells = cells.set i new
  := by
  induction cells with
  | nil => simp at h
  | cons cell rest ih =>
    cases cell with
    | none =>
      obtain ⟨i, hi, hset⟩ := ih (by simpa using h)
      use i + 1, by simpa using hi
      intro new
      simp [setFirst, hset new]
    | some v =>
      by_cases hv : v.uid = uid
      · obtain rfl : v = u := by simpa [hv] using h
        use 0, rfl
        intro new
        simp [setFirst, hv]
      · obtain ⟨i, hi, hset⟩ := ih (by simpa [hv] using h)
        use i + 1, by simpa using hi
        intro new
        simp [setFirst, hv, hset new]

/-- Cells of the same number are the same. -/
theorem Cell.index?_inj {cell cell' : Cell} {i : Nat} (h : cell.index? = some i)
    (h' : cell'.index? = some i) :
  cell = cell'
  := by
  obtain ⟨lane, column⟩ := cell
  obtain ⟨lane', column'⟩ := cell'
  simp only [Cell.index?, Option.ite_none_right_eq_some, Option.some.injEq] at h h'
  obtain ⟨hcolumn, rfl⟩ := h
  obtain ⟨hcolumn', hsame⟩ := h'
  rw [columns] at hcolumn hcolumn' hsame
  have hlanes : lane = lane' := by
    cases lane <;> cases lane' <;> first | rfl | (simp only [Lane.rank] at hsame; omega)
  subst hlanes
  have hcolumns : column = column' := UInt64.toNat_inj.mp (by omega)
  rw [hcolumns]

namespace Board

/-- One cell of a board changes from one content to another. -/
structure Turns (b : Board) (i : Nat) (old new : Option BoardUnit) (b' : Board) : Prop where
  held : b.cells[i]? = some old
  cells_eq : b'.cells = b.cells.set i new

namespace Turns

variable {b b' : Board} {i : Nat} {old new : Option BoardUnit}

/-- The cell holds what it has been changed to. -/
theorem holds (h : b.Turns i old new b') :
  b'.cells[i]? = some new
  := by
  rw [h.cells_eq, List.getElem?_set_self]
  exact (List.getElem?_eq_some_iff.mp h.held).1

/-- Every cell holds what it held but for the one that changes. -/
theorem content? (h : b.Turns i old new b') {changed : Cell} (hchanged : changed.index? = some i)
    (cell : Cell) :
  b'.content? cell = if cell = changed then some new else b.content? cell
  := by
  split
  · next hsame =>
    rw [hsame, Board.content?, hchanged]
    exact h.holds
  · next hother =>
    rw [Board.content?, Board.content?, h.cells_eq]
    cases hcell : cell.index? with
    | none => rfl
    | some j =>
      have hij : i ≠ j := by
        rintro rfl
        exact hother (Cell.index?_inj hcell hchanged)
      exact List.getElem?_set_ne hij

/-- The units are the same but for those of the cell. -/
theorem units (h : b.Turns i old new b') :
  ∃ l r, b.units = l ++ old.toList ++ r ∧ b'.units = l ++ new.toList ++ r
  := by
  obtain ⟨l, r, hold, hnew⟩ := filterMap_set h.held
  use l, r, hold
  rw [Board.units, h.cells_eq, hnew]

/-- The units are those that are left and the one that is taken. -/
theorem perm_taken {u : BoardUnit} (h : b.Turns i (some u) none b') :
  b.units.Perm (u :: b'.units)
  := by
  obtain ⟨l, r, hold, hnew⟩ := h.units
  rw [hold, hnew]
  simp only [Option.toList_some, Option.toList_none, List.append_assoc, List.singleton_append,
    List.nil_append]
  apply List.perm_middle

/-- The units are those from before and the one that is put. -/
theorem perm_put {u : BoardUnit} (h : b.Turns i none (some u) b') :
  b'.units.Perm (u :: b.units)
  := by
  obtain ⟨l, r, hold, hnew⟩ := h.units
  rw [hold, hnew]
  simp only [Option.toList_some, Option.toList_none, List.append_assoc, List.singleton_append,
    List.nil_append]
  apply List.perm_middle

end Turns

/-- There are no more units on a board than cells. -/
theorem length_units_le (b : Board) :
  b.units.length ≤ boardSize
  := by
  rw [← b.length_eq]
  apply List.length_filterMap_le

theorem mem_of_find? {b : Board} {uid : Uid} {u : BoardUnit} (h : b.find? uid = some u) :
  u ∈ b.units
  := List.mem_of_find?_eq_some h

/-- Setting the unit of a uid changes the cell it stands in. -/
theorem setUnit_turns {b : Board} {uid : Uid} {u : BoardUnit} (h : b.find? uid = some u)
    (new : Option BoardUnit) :
  ∃ i, b.Turns i (some u) new (b.setUnit uid new)
  := by
  obtain ⟨i, hi, hset⟩ := setFirst_eq_set h
  use i, hi, hset new

/-- Taking a unit off the board leaves its cell free. -/
theorem take?_eq_some {b : Board} {uid : Uid} {u : BoardUnit} {b' : Board} :
  b.take? uid = some (u, b') ↔ b.find? uid = some u ∧ b.setUnit uid none = b'
  := by
  simp only [take?, Option.map_eq_some_iff, Prod.mk.injEq]
  constructor
  · rintro ⟨_, h, rfl, rfl⟩
    exact ⟨h, rfl⟩
  · rintro ⟨h, rfl⟩
    use u, h

/-- Another unit is found as before when one has been taken off the board. -/
theorem find?_setUnit_none {b : Board} {uid other : Uid} (h : other ≠ uid) :
  (b.setUnit uid none).find? other = b.find? other
  := by
  change ((setFirst uid none b.cells).filterMap id).find? _ = (b.cells.filterMap id).find? _
  induction b.cells with
  | nil => rfl
  | cons cell rest ih =>
    cases cell with
    | none => simpa [setFirst] using ih
    | some u =>
      by_cases hu : u.uid = uid
      · simp [setFirst, hu, Ne.symm h]
      · by_cases hother : u.uid = other
        · simp [setFirst, hother, h]
        · simpa [setFirst, hu, hother] using ih

/-- A unit that names a cell of the board can be put there. -/
theorem put_turns {b : Board} {u : BoardUnit} {i : Nat} {old : Option BoardUnit}
    (hcell : u.cell.index? = some i) (hold : b.cells[i]? = some old) :
  ∃ b', b.put u = .ok b' ∧ b.Turns i old (some u) b'
  := by
  rw [put]
  rw [hcell]
  exact ⟨_, rfl, hold, rfl⟩

/-- A free cell is on the board and holds no unit. -/
theorem isFree_iff {b : Board} {cell : Cell} :
  b.isFree cell ↔ ∃ i, cell.index? = some i ∧ b.cells[i]? = some none
  := by
  simp [isFree, content?, Option.bind_eq_some_iff]

/-- A unit can be placed in a free cell. -/
theorem place?_of_isFree {b : Board} {u : BoardUnit} (h : b.isFree u.cell) :
  ∃ i b', u.cell.index? = some i ∧ b.place? u = some b' ∧ b.Turns i none (some u) b'
  := by
  obtain ⟨i, hcell, hfree⟩ := isFree_iff.mp h
  obtain ⟨b', hput, hturns⟩ := put_turns hcell hfree
  use i, b', hcell
  rw [place?, if_pos h, hput]
  exact ⟨rfl, hturns⟩

/-- Units are placed in free cells only. -/
theorem isFree_of_place? {b b' : Board} {u : BoardUnit} (h : b.place? u = some b') :
  b.isFree u.cell
  := by
  rw [place?] at h
  split at h
  · assumption
  · cases h

/-- A unit that is placed comes into the free cell it names. -/
theorem place?_turns {b b' : Board} {u : BoardUnit} (h : b.place? u = some b') :
  ∃ i, u.cell.index? = some i ∧ b.Turns i none (some u) b'
  := by
  obtain ⟨i, placed, hcell, hplaced, hturns⟩ := place?_of_isFree (isFree_of_place? h)
  obtain rfl := Option.some.inj (hplaced.symm.trans h)
  exact ⟨i, hcell, hturns⟩

/-! ### Arranged boards -/

/-- Every unit stands in the cell it names, and belongs to the player. -/
def Arranged (player : UInt8) (b : Board) : Prop :=
  ∀ i (u : BoardUnit), b.cells[i]? = some (some u) → u.cell.index? = some i ∧ u.owner = player

variable {b b' : Board} {player : UInt8} {i : Nat} {old new : Option BoardUnit}

/-- A board stays arranged when the unit that comes into a cell names it. -/
theorem Arranged.turns (hb : b.Arranged player) (h : b.Turns i old new b')
    (hnew : ∀ u ∈ new, u.cell.index? = some i ∧ u.owner = player) :
  b'.Arranged player
  := by
  intro j u hu
  rw [h.cells_eq, List.getElem?_set] at hu
  split at hu
  · next hij =>
    subst hij
    split at hu
    · apply hnew u
      simpa using hu
    · cases hu
  · apply hb j u hu

/-- On an arranged board every unit belongs to the player. -/
theorem Arranged.owner (hb : b.Arranged player) {u : BoardUnit} (hu : u ∈ b.units) :
  u.owner = player
  := by
  simp only [Board.units, List.mem_filterMap, id_eq, exists_eq_right] at hu
  obtain ⟨i, hi⟩ := List.mem_iff_getElem?.mp hu
  exact (hb i u hi).2

/-- On an arranged board every unit is in the cell that it names. -/
theorem Arranged.content? (hb : b.Arranged player) {u : BoardUnit} (hu : u ∈ b.units) :
  b.content? u.cell = some (some u)
  := by
  simp only [Board.units, List.mem_filterMap, id_eq, exists_eq_right] at hu
  obtain ⟨i, hi⟩ := List.mem_iff_getElem?.mp hu
  rw [Board.content?, (hb i u hi).1]
  exact hi

/-- The empty board is arranged. -/
theorem arranged_empty (player : UInt8) :
  Arranged player ∅
  := by
  intro i u h
  obtain ⟨_, h⟩ := List.getElem?_eq_some_iff.mp h
  simp [EmptyCollection.emptyCollection, empty] at h

/-! ### Changes of all units -/

/-- Every cell holds what `f` makes of the unit it held. -/
theorem changeUnits_ok {f : BoardUnit → Except Fault BoardUnit}
    {cells changed : List (Option BoardUnit)} (h : changeUnits f cells = .ok changed) :
  List.Forall₂ (Option.Rel fun u v => f u = .ok v) cells changed
  := by
  induction cells generalizing changed with
  | nil =>
    cases h
    exact .nil
  | cons cell rest ih =>
    cases cell with
    | none =>
      obtain ⟨changed', hrest, h⟩ := bind_eq_ok.mp h
      obtain rfl := pure_eq_ok.mp h
      exact .cons .none (ih hrest)
    | some u =>
      obtain ⟨v, hv, h⟩ := bind_eq_ok.mp h
      obtain ⟨changed', hrest, h⟩ := bind_eq_ok.mp h
      obtain rfl := pure_eq_ok.mp h
      exact .cons (.some hv) (ih hrest)

/-- Where `f` changes each of some units, it changes them all. -/
theorem changeAll_forall {b b' : Board} {f : BoardUnit → Except Fault BoardUnit}
    (h : b.changeAll f = .ok b') :
  List.Forall₂ (Option.Rel fun u v => f u = .ok v) b.cells b'.cells
  := by
  rw [changeAll] at h
  split at h
  · next cells hcells =>
    obtain rfl := Except.ok.inj h
    apply changeUnits_ok hcells
  · cases h

/-- What stands at a place of the second list is related to what stands there in the
first. -/
theorem getElem?_of_forall {α : Type} {R : α → α → Prop} {l l' : List α}
    (h : List.Forall₂ R l l') {i : Nat} {y : α} (hy : l'[i]? = some y) :
  ∃ x, l[i]? = some x ∧ R x y
  := by
  induction h generalizing i with
  | nil => cases hy
  | cons hxy _ ih =>
    cases i with
    | zero =>
      obtain rfl := Option.some.inj hy
      exact ⟨_, rfl, hxy⟩
    | succ i => exact ih hy

/-- What holds of the contents of all cells holds of the units. -/
theorem filterMap_forall {α : Type} {R : α → α → Prop} {l l' : List (Option α)}
    (h : List.Forall₂ (Option.Rel R) l l') :
  List.Forall₂ R (l.filterMap id) (l'.filterMap id)
  := by
  induction h with
  | nil => exact .nil
  | cons hcell _ ih =>
    rw [filterMap_id_cons, filterMap_id_cons]
    cases hcell with
    | none => exact ih
    | some hv => exact .cons hv ih

/-- The units after a change of all units are what `f` makes of them, in order. -/
theorem changeAll_units {b b' : Board} {f : BoardUnit → Except Fault BoardUnit}
    (h : b.changeAll f = .ok b') :
  List.Forall₂ (fun u v => f u = .ok v) b.units b'.units
  := by
  apply filterMap_forall (changeAll_forall h)

/-- What is the same for related units is the same for lists of them. -/
theorem map_eq_of_forall {α : Type} {R : BoardUnit → BoardUnit → Prop} {g : BoardUnit → α}
    (hg : ∀ u v, R u v → g v = g u) {l l' : List BoardUnit} (h : List.Forall₂ R l l') :
  l'.map g = l.map g
  := by
  induction h with
  | nil => rfl
  | cons huv _ ih => rw [List.map_cons, List.map_cons, hg _ _ huv, ih]

/-- A board stays arranged when no unit changes its cell or its owner. -/
theorem Arranged.changeAll {b b' : Board} {player : UInt8} (hb : b.Arranged player)
    {f : BoardUnit → Except Fault BoardUnit}
    (hf : ∀ u v, f u = .ok v → v.cell = u.cell ∧ v.owner = u.owner)
    (h : b.changeAll f = .ok b') :
  b'.Arranged player
  := by
  intro i v hv
  obtain ⟨cell, hcell, hrel⟩ := getElem?_of_forall (changeAll_forall h) hv
  cases hrel with
  | some hrel =>
    obtain ⟨hsame, howner⟩ := hf _ _ hrel
    rw [hsame, howner]
    apply hb i _ hcell

end Board

end CardBattle
