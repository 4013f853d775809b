import CardBattle.Proofs.Battle.Lookup

/-!
# Battles that differ in their units

Two battles are the same in place when they are the same but for the units, and each unit of
the one stands in the place of a unit of the other to which it is related
(`Battle.InPlace`).  A change of all units is such a relation, and so is the replacement of
one unit; relations in place are put together like the relations of units.
-/

namespace CardBattle

/-- Nothing differs but the units, and each of them stands in the place of one that it is
related to. -/
structure Battle.InPlace (R : BoardUnit → BoardUnit → Prop) (b b' : Battle) : Prop where
  frame : b' = { b with side0.board := b'.side0.board, side1.board := b'.side1.board }
  board0 : List.Forall₂ (Option.Rel R) b.side0.board.cells b'.side0.board.cells
  board1 : List.Forall₂ (Option.Rel R) b.side1.board.cells b'.side1.board.cells

/-! ### Cells in place -/

section

variable {R S : BoardUnit → BoardUnit → Prop} {cells cells' cells'' : List (Option BoardUnit)}

theorem cells_refl (h : ∀ u, some u ∈ cells → R u u) :
  List.Forall₂ (Option.Rel R) cells cells
  := by
  apply List.forall₂_same.mpr
  intro cell hcell
  cases cell with
  | none => exact .none
  | some u => exact .some (h u hcell)

theorem cells_symm (h : List.Forall₂ (Option.Rel R) cells cells') :
  List.Forall₂ (Option.Rel fun v u => R u v) cells' cells
  := by
  apply List.Forall₂.flip
  apply h.imp
  intro cell cell' hcell
  cases hcell with
  | none => exact .none
  | some huv => exact .some huv

theorem cells_trans (h : List.Forall₂ (Option.Rel R) cells cells')
    (h' : List.Forall₂ (Option.Rel S) cells' cells'') :
  List.Forall₂ (Option.Rel fun u w => ∃ v, R u v ∧ S v w) cells cells''
  := by
  induction h generalizing cells'' with
  | nil =>
    cases h'
    exact .nil
  | cons hcell _ ih =>
    cases h' with
    | cons hcell' hrest' =>
      constructor
      · cases hcell with
        | none =>
          cases hcell'
          exact .none
        | some huv =>
          cases hcell' with
          | some hvw => exact .some ⟨_, huv, hvw⟩
      · exact ih hrest'

/-- Cells are related otherwise if all their units are. -/
theorem cells_mono (h : List.Forall₂ (Option.Rel R) cells cells')
    (hS : ∀ u v, some u ∈ cells → some v ∈ cells' → R u v → S u v) :
  List.Forall₂ (Option.Rel S) cells cells'
  := by
  induction h with
  | nil => exact .nil
  | cons hcell _ ih =>
    constructor
    · cases hcell with
      | none => exact .none
      | some huv => exact .some (hS _ _ List.mem_cons_self List.mem_cons_self huv)
    · apply ih
      intro u v hu hv
      apply hS u v (List.mem_cons_of_mem _ hu) (List.mem_cons_of_mem _ hv)

theorem cells_eq (h : List.Forall₂ (Option.Rel Eq) cells cells') :
  cells' = cells
  := by
  have heq : List.Forall₂ (· = ·) cells cells' := by
    apply h.imp
    intro cell cell' hcell
    cases hcell with
    | none => rfl
    | some huv => rw [huv]
  exact (List.forall₂_eq_eq_eq ▸ heq).symm

/-- Units in cells that are related to what `f` makes of them are changed by it. -/
theorem changeUnits_eq_ok {f : BoardUnit → Except Fault BoardUnit} :
  changeUnits f cells = .ok cells'
    ↔ List.Forall₂ (Option.Rel fun u v => f u = .ok v) cells cells'
  := by
  use Board.changeUnits_ok
  intro h
  induction h with
  | nil => rfl
  | cons hcell _ ih =>
    cases hcell with
    | none =>
      rw [changeUnits, ih]
      rfl
    | some hv =>
      rw [changeUnits, hv, ih]
      rfl

/-- The first unit of a uid is replaced in its place. -/
theorem cells_setFirst {u v : BoardUnit}
    (hu : (cells.filterMap id).find? (fun w => w.uid = u.uid) = some u)
    (hdistinct : ((cells.filterMap id).map BoardUnit.uid).Nodup) :
  List.Forall₂ (Option.Rel fun w w' => w' = if w.uid = u.uid then v else w) cells
    (setFirst u.uid (some v) cells)
  := by
  induction cells with
  | nil => exact .nil
  | cons cell rest ih =>
    cases cell with
    | none => exact .cons .none (ih hu hdistinct)
    | some w =>
      rw [setFirst]
      split
      · next huid =>
        constructor
        · apply Option.Rel.some
          rw [if_pos huid]
        · apply cells_refl
          intro x hx
          have hfresh := (List.nodup_cons.mp hdistinct).1
          rw [if_neg]
          intro hxuid
          apply hfresh
          rw [huid, ← hxuid]
          apply List.mem_map_of_mem
          simpa using hx
      · next huid =>
        constructor
        · apply Option.Rel.some
          rw [if_neg huid]
        · apply ih
          · simpa [huid] using hu
          · exact (List.nodup_cons.mp hdistinct).2

/-- Cells stay related when the first units of one uid are replaced by related contents. -/
theorem setFirst_forall (h : List.Forall₂ (Option.Rel R) cells cells')
    (hR : ∀ u v, R u v → v.uid = u.uid) (uid : Uid) {new new' : Option BoardUnit}
    (hnew : Option.Rel R new new') :
  List.Forall₂ (Option.Rel R) (setFirst uid new cells) (setFirst uid new' cells')
  := by
  induction h with
  | nil => exact .nil
  | cons hcell hrest ih =>
    cases hcell with
    | none => exact .cons .none ih
    | some huv =>
      rw [setFirst, setFirst, hR _ _ huv]
      split
      · exact .cons hnew hrest
      · exact .cons (.some huv) ih

/-- Cells stay related when one place is given related contents. -/
theorem set_forall (h : List.Forall₂ (Option.Rel R) cells cells') (i : Nat)
    {new new' : Option BoardUnit} (hnew : Option.Rel R new new') :
  List.Forall₂ (Option.Rel R) (cells.set i new) (cells'.set i new')
  := by
  induction h generalizing i with
  | nil => exact .nil
  | cons hcell hrest ih =>
    cases i with
    | zero => exact .cons hnew hrest
    | succ i => exact .cons hcell (ih i)

end

/-! ### Boards and sides in place -/

/-- The units of the boards are related in place. -/
abbrev Board.InPlace (R : BoardUnit → BoardUnit → Prop) (board board' : Board) : Prop :=
  List.Forall₂ (Option.Rel R) board.cells board'.cells

/-- Nothing of the sides differs but the boards, and their units are related in place. -/
structure Side.InPlace (R : BoardUnit → BoardUnit → Prop) (s t : Side) : Prop where
  frame : t = { s with board := t.board }
  board : s.board.InPlace R t.board

namespace Board.InPlace

variable {R : BoardUnit → BoardUnit → Prop} {board board' : Board} {u v : BoardUnit}
  (hR : ∀ u v, R u v → v.uid = u.uid)

include hR

theorem find? (h : board.InPlace R board') (uid : Uid) :
  Option.Rel R (board.find? uid) (board'.find? uid)
  := by
  apply Battle.find?_of_forall (Board.filterMap_forall h)
  intro u v huv
  rw [hR u v huv]

theorem setUnit (h : board.InPlace R board') (uid : Uid) {new new' : Option BoardUnit}
    (hnew : Option.Rel R new new') :
  (board.setUnit uid new).InPlace R (board'.setUnit uid new')
  := setFirst_forall h hR uid hnew

/-- What is taken off two boards is related, and so is what is left. -/
theorem take? (h : board.InPlace R board') (uid : Uid) :
  Option.Rel (fun taken taken' => R taken.1 taken'.1 ∧ taken.2.InPlace R taken'.2)
    (board.take? uid) (board'.take? uid)
  := by
  have hfound := find? hR h uid
  rw [Board.take?, Board.take?]
  generalize board.find? uid = found at hfound
  generalize board'.find? uid = found' at hfound
  cases hfound with
  | none => exact .none
  | some huv => exact .some ⟨huv, setUnit hR h uid .none⟩

end Board.InPlace

/-- Units that name the same cell are put into the same place. -/
theorem Board.InPlace.put {R : BoardUnit → BoardUnit → Prop} {board board' : Board}
    {u v : BoardUnit} (h : board.InPlace R board') (huv : R u v) (hcell : v.cell = u.cell) :
  Matches (Board.InPlace R) (board.put u) (board'.put v)
  := by
  rw [Board.put, Board.put, hcell]
  cases u.cell.index? with
  | none =>
    intro after hafter
    cases hafter
  | some i => exact matches_ok (set_forall h i (.some huv))

namespace Battle

namespace InPlace

variable {R S : BoardUnit → BoardUnit → Prop} {b m b' : Battle}

theorem refl (hR : ∀ u, R u u) (b : Battle) :
  b.InPlace R b
  := ⟨rfl, cells_refl fun u _ => hR u, cells_refl fun u _ => hR u⟩

theorem symm (h : b.InPlace R b') :
  b'.InPlace (fun v u => R u v) b
  := by
  constructor
  · rw [h.frame]
  · apply cells_symm h.board0
  · apply cells_symm h.board1

theorem trans (h : b.InPlace R m) (h' : m.InPlace S b') :
  b.InPlace (fun u w => ∃ v, R u v ∧ S v w) b'
  := by
  constructor
  · rw [h'.frame, h.frame]
  · apply cells_trans h.board0 h'.board0
  · apply cells_trans h.board1 h'.board1

/-- Battles are related otherwise if all their units are. -/
theorem mono (h : b.InPlace R b') (hS : ∀ u ∈ b.units, ∀ v ∈ b'.units, R u v → S u v) :
  b.InPlace S b'
  := by
  use h.frame
  · apply cells_mono h.board0
    intro u v hu hv
    apply hS u _ v _
    · apply List.mem_append_left
      simpa [Board.units] using hu
    · apply List.mem_append_left
      simpa [Board.units] using hv
  · apply cells_mono h.board1
    intro u v hu hv
    apply hS u _ v _
    · apply List.mem_append_right
      simpa [Board.units] using hu
    · apply List.mem_append_right
      simpa [Board.units] using hv

/-- Where all units are the same, the battles are. -/
theorem eq (h : b.InPlace Eq b') :
  b' = b
  := by
  have h0 : b'.side0.board = b.side0.board := by
    have hcells := cells_eq h.board0
    cases hb : b'.side0.board
    rw [hb] at hcells
    subst hcells
    rfl
  have h1 : b'.side1.board = b.side1.board := by
    have hcells := cells_eq h.board1
    cases hb : b'.side1.board
    rw [hb] at hcells
    subst hcells
    rfl
  rw [h.frame, h0, h1]

/-- The units are related in order. -/
theorem units (h : b.InPlace R b') :
  List.Forall₂ R b.units b'.units
  := List.rel_append (Board.filterMap_forall h.board0) (Board.filterMap_forall h.board1)

/-- Every unit stands in the place of one that it is related to. -/
theorem exists_unit (h : b.InPlace R b') {v : BoardUnit} (hv : v ∈ b'.units) :
  ∃ u ∈ b.units, R u v
  := by
  obtain ⟨i, hi⟩ := List.mem_iff_getElem?.mp hv
  obtain ⟨u, hu, huv⟩ := Board.getElem?_of_forall h.units hi
  exact ⟨u, List.mem_of_getElem? hu, huv⟩

/-- What is found at a uid is related to what stands in its place. -/
theorem find? (h : b.InPlace R b') (hR : ∀ u v, R u v → v.uid = u.uid) (uid : Uid) :
  Option.Rel R (b.find? uid) (b'.find? uid)
  := by
  apply find?_of_forall h.units
  intro u v huv
  rw [hR u v huv]

/-- In the place of a unit of a uid there is one of that uid that it is related to. -/
theorem exists_of_find? (h : b.InPlace R b') (hR : ∀ u v, R u v → v.uid = u.uid) {uid : Uid}
    {u : BoardUnit} (hu : b.find? uid = some u) :
  ∃ v, b'.find? uid = some v ∧ R u v
  := by
  have hfound := h.find? hR uid
  rw [hu] at hfound
  cases hv : b'.find? uid with
  | none =>
    rw [hv] at hfound
    cases hfound
  | some v =>
    rw [hv] at hfound
    cases hfound with
    | some huv => exact ⟨v, rfl, huv⟩

theorem record (h : b.InPlace R b') (line : String) :
  (b.record line).InPlace R (b'.record line)
  := by
  refine ⟨?_, h.board0, h.board1⟩
  rw [h.frame]
  rfl

theorem foldl_record (h : b.InPlace R b') {α : Type} (line : α → String) (l : List α) :
  (l.foldl (fun b a => b.record (line a)) b).InPlace R
    (l.foldl (fun b a => b.record (line a)) b')
  := by
  induction l generalizing b b' with
  | nil => exact h
  | cons a rest ih => exact ih (h.record (line a))

theorem side? (h : b.InPlace R b') (player : UInt8) :
  Option.Rel (Side.InPlace R) (b.side? player) (b'.side? player)
  := by
  have h0 : Side.InPlace R b.side0 b'.side0 := ⟨by rw [h.frame], h.board0⟩
  have h1 : Side.InPlace R b.side1 b'.side1 := ⟨by rw [h.frame], h.board1⟩
  rw [Battle.side?, Battle.side?]
  split
  · exact .some h0
  · split
    · exact .some h1
    · exact .none

theorem setSide (h : b.InPlace R b') (player : UInt8) {s t : Side} (hs : s.InPlace R t) :
  (b.setSide player s).InPlace R (b'.setSide player t)
  := by
  rw [Battle.setSide, Battle.setSide]
  split
  · refine ⟨?_, hs.board, h.board1⟩
    rw [h.frame, hs.frame]
  · split
    · refine ⟨?_, h.board0, hs.board⟩
      rw [h.frame, hs.frame]
    · exact h

theorem setBoard (h : b.InPlace R b') (player : UInt8) {board board' : Board}
    (hboard : board.InPlace R board') :
  (b.setBoard player board).InPlace R (b'.setBoard player board')
  := by
  rw [Battle.setBoard, Battle.setBoard]
  split
  · refine ⟨?_, hboard, h.board1⟩
    rw [h.frame]
  · split
    · refine ⟨?_, h.board0, hboard⟩
      rw [h.frame]
    · exact h

/-- Battles stay related when related units are replaced by related ones. -/
theorem replace (h : b.InPlace R b') (hR : ∀ u v, R u v → v.uid = u.uid) {u v : BoardUnit}
    (huv : R u v) :
  (b.replace u).InPlace R (b'.replace v)
  := by
  have hboard0 : Board.InPlace R b.side0.board b'.side0.board := h.board0
  have hboard1 : Board.InPlace R b.side1.board b'.side1.board := h.board1
  have hfound := hboard0.find? hR u.uid
  rw [Battle.replace, Battle.replace, hR u v huv]
  generalize b.side0.board.find? u.uid = found at hfound
  generalize b'.side0.board.find? u.uid = found' at hfound
  cases hfound with
  | none =>
    refine ⟨?_, h.board0, hboard1.setUnit hR u.uid (.some huv)⟩
    rw [h.frame]
  | some _ =>
    refine ⟨?_, hboard0.setUnit hR u.uid (.some huv), h.board1⟩
    rw [h.frame]

end InPlace

variable {b b' : Battle}

/-- A change of all units changes them in place. -/
theorem changeAll_eq_ok {f : BoardUnit → Except Fault BoardUnit} :
  b.changeAll f = .ok b' ↔ b.InPlace (fun u v => f u = .ok v) b'
  := by
  constructor
  · intro h
    obtain ⟨board0, h0, h⟩ := bind_eq_ok.mp h
    obtain ⟨board1, h1, h⟩ := bind_eq_ok.mp h
    obtain rfl := pure_eq_ok.mp h
    exact ⟨rfl, Board.changeAll_forall h0, Board.changeAll_forall h1⟩
  · intro h
    have hboard : ∀ {board board' : Board},
        List.Forall₂ (Option.Rel fun u v => f u = .ok v) board.cells board'.cells →
        board.changeAll f = .ok board' := by
      intro board board' hcells
      rw [Board.changeAll]
      split
      · next cells hchanged =>
        obtain rfl := Except.ok.inj (hchanged.symm.trans (changeUnits_eq_ok.mpr hcells))
        rfl
      · next fault hfault =>
        rw [changeUnits_eq_ok.mpr hcells] at hfault
        cases hfault
    apply bind_eq_ok.mpr
    use b'.side0.board, hboard h.board0
    apply bind_eq_ok.mpr
    use b'.side1.board, hboard h.board1
    rw [h.frame]
    rfl

/-- A change of all units that cannot fail changes them in place. -/
theorem changeAll_ok {f : BoardUnit → BoardUnit} (h : b.changeAll (fun u => .ok (f u)) = .ok b') :
  b.InPlace (fun u v => v = f u) b'
  := (changeAll_eq_ok.mp h).mono fun _ _ _ _ h => (Except.ok.inj h).symm

/-- All units can be changed if no change can fail. -/
theorem exists_changeAll (f : BoardUnit → BoardUnit) (b : Battle) :
  ∃ b', b.changeAll (fun u => .ok (f u)) = .ok b'
  := by
  have hcells : ∀ cells : List (Option BoardUnit),
      List.Forall₂ (Option.Rel fun u v => (.ok (f u) : Except Fault BoardUnit) = .ok v) cells
        (cells.map (Option.map f)) := by
    intro cells
    apply List.forall₂_map_right_iff.mpr
    apply List.forall₂_same.mpr
    rintro (_ | u) -
    · exact .none
    · exact .some rfl
  let changed (board : Board) : Board :=
    ⟨board.cells.map (Option.map f), by rw [List.length_map, board.length_eq]⟩
  use { b with side0.board := changed b.side0.board, side1.board := changed b.side1.board }
  exact changeAll_eq_ok.mpr ⟨rfl, hcells _, hcells _⟩

/-- A unit of a coherent battle is replaced in its place. -/
theorem Coherent.inPlace_replace (hb : b.Coherent) {u v : BoardUnit}
    (hu : b.find? u.uid = some u) (huid : v.uid = u.uid) :
  b.InPlace (fun w w' => w' = if w.uid = u.uid then v else w) (b.replace v)
  := by
  have hdistinct := hb.distinct
  rw [Battle.units, List.map_append] at hdistinct
  obtain ⟨hdistinct0, hdistinct1, hapart⟩ := List.nodup_append.mp hdistinct
  have hother : ∀ {board : Board}, u.uid ∉ board.units.map BoardUnit.uid →
      List.Forall₂ (Option.Rel fun w w' => w' = if w.uid = u.uid then v else w) board.cells
        board.cells := by
    intro board hfresh
    apply cells_refl
    intro w hw
    rw [if_neg]
    intro hwuid
    apply hfresh
    rw [← hwuid]
    apply List.mem_map_of_mem
    simpa [Board.units] using hw
  rw [Battle.replace, huid]
  rw [Battle.find?, Battle.units, List.find?_append, Option.or_eq_some_iff] at hu
  rcases hu with hu | ⟨h0, hu⟩
  · rw [Board.find?, hu]
    use rfl, cells_setFirst hu hdistinct0
    apply hother
    intro hmem
    apply hapart u.uid (List.mem_map_of_mem (List.mem_of_find?_eq_some hu)) _ hmem rfl
  · rw [Board.find?, h0]
    refine ⟨rfl, hother ?_, cells_setFirst hu hdistinct1⟩
    intro hmem
    apply hapart _ hmem u.uid (List.mem_map_of_mem (List.mem_of_find?_eq_some hu)) rfl

end Battle

end CardBattle
