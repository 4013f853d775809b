import CardBattle.Battle.Integrity
import CardBattle.Proofs.Board.Cells
import CardBattle.Proofs.BoardUnit.Statistics

/-!
# Coherent battles

A battle is coherent when its boards are arranged, the uids of its units have been issued
and are distinct, and no living unit has more vitality than its maximum.  This is what holds
in the middle of an action too, while units without vitality are still to leave.  A coherent
battle is sound when all its units are alive.

A battle stays coherent when the content of one cell changes (`Coherent.turns`) and when all
units are changed in place (`Coherent.changeAll`).
-/

namespace CardBattle

/-- The uid of the unit has been issued, and its vitality is bounded. -/
structure BoardUnit.Fit (counter : UidCounter) (u : BoardUnit) : Prop where
  issued : counter.hasIssued u.uid
  bounded : u.Bounded

namespace Battle

/-- Boards, uids and vitality are in order, but for units that are to leave. -/
structure Coherent (b : Battle) : Prop where
  active : b.activePlayer ≤ 1
  arranged0 : b.side0.board.Arranged 0
  arranged1 : b.side1.board.Arranged 1
  distinct : (b.units.map BoardUnit.uid).Nodup
  fit : ∀ u ∈ b.units, u.Fit b.uids

/-- Boards, uids and vitality are in order, and all units are alive. -/
structure Sound (b : Battle) : Prop extends Coherent b where
  alive : ∀ u ∈ b.units, u.isAlive

variable {b b' : Battle} {player : UInt8} {side : Side}

/-! ### Sides -/

/-- Only the players 0 and 1 have sides. -/
theorem side?_cases (h : b.side? player = some side) :
  player = 0 ∧ side = b.side0 ∨ player = 1 ∧ side = b.side1
  := by
  rw [side?] at h
  split at h
  · next hp => exact .inl ⟨hp, (Option.some.inj h).symm⟩
  · split at h
    · next hp => exact .inr ⟨hp, (Option.some.inj h).symm⟩
    · cases h

/-- The side of a player after the board of the player was set. -/
theorem side?_setBoard (h : b.side? player = some side) (board : Board) :
  (b.setBoard player board).side? player = some { side with board }
  := by
  obtain ⟨rfl, rfl⟩ | ⟨rfl, rfl⟩ := side?_cases h <;> rfl

theorem setBoard_setBoard (b : Battle) (player : UInt8) (board board' : Board) :
  (b.setBoard player board).setBoard player board' = b.setBoard player board'
  := by
  unfold setBoard
  split
  · rfl
  · split
    · rfl
    · rfl

theorem setBoard_board (h : b.side? player = some side) :
  b.setBoard player side.board = b
  := by
  obtain ⟨rfl, rfl⟩ | ⟨rfl, rfl⟩ := side?_cases h <;> rfl

@[simp]
theorem setBoard_uids (b : Battle) (player : UInt8) (board : Board) :
  (b.setBoard player board).uids = b.uids
  := by
  rw [setBoard]
  split
  · rfl
  · split <;> rfl

@[simp]
theorem setSide_uids (b : Battle) (player : UInt8) (s : Side) :
  (b.setSide player s).uids = b.uids
  := by
  rw [setSide]
  split
  · rfl
  · split <;> rfl

@[simp]
theorem replace_uids (b : Battle) (u : BoardUnit) :
  (b.replace u).uids = b.uids
  := by
  rw [replace]
  split <;> rfl

@[simp]
theorem setSide_turn (b : Battle) (player : UInt8) (s : Side) :
  (b.setSide player s).turn = b.turn
  := by
  rw [setSide]
  split
  · rfl
  · split <;> rfl

@[simp]
theorem replace_turn (b : Battle) (u : BoardUnit) :
  (b.replace u).turn = b.turn
  := by
  rw [replace]
  split <;> rfl

theorem setSide_board (h : b.side? player = some side) (board : Board) :
  b.setSide player { side with board } = b.setBoard player board
  := by
  obtain ⟨rfl, rfl⟩ | ⟨rfl, rfl⟩ := side?_cases h <;> rfl

theorem units_setSide (b : Battle) (player : UInt8) (s : Side) :
  (b.setSide player s).units = (b.setBoard player s.board).units
  := by
  rw [setSide, setBoard]
  split
  · rfl
  · split <;> rfl

/-- The units of a player stand between those that are not concerned when the board of the
player is set. -/
theorem units_setBoard (h : b.side? player = some side) :
  ∃ l r, b.units = l ++ side.board.units ++ r
    ∧ ∀ board, (b.setBoard player board).units = l ++ board.units ++ r
  := by
  obtain ⟨rfl, rfl⟩ | ⟨rfl, rfl⟩ := side?_cases h
  · use [], b.side1.board.units, rfl
    intro board
    rfl
  · use b.side0.board.units, []
    constructor
    · simp [units]
    · intro board
      simp [units, setBoard]

/-- The units of a player are units of the battle. -/
theorem mem_units_of_side (h : b.side? player = some side) {u : BoardUnit}
    (hu : u ∈ side.board.units) :
  u ∈ b.units
  := by
  obtain ⟨l, r, hunits, -⟩ := units_setBoard h
  rw [hunits]
  simp [hu]

/-- The units of both boards when a cell of one of them changes. -/
theorem units_turns {i : Nat} {old new : Option BoardUnit} {board : Board}
    (hside : b.side? player = some side) (h : side.board.Turns i old new board) :
  ∃ l r, b.units = l ++ old.toList ++ r
    ∧ (b.setBoard player board).units = l ++ new.toList ++ r
  := by
  obtain ⟨l, r, hunits, hset⟩ := units_setBoard hside
  obtain ⟨l', r', hold, hnew⟩ := h.units
  use l ++ l', r' ++ r
  constructor
  · rw [hunits, hold]
    simp only [List.append_assoc]
  · rw [hset, hnew]
    simp only [List.append_assoc]

/-- There are at most six units on either board. -/
theorem length_units_le (b : Battle) :
  b.units.length ≤ 12
  := by
  have h0 : b.side0.board.units.length ≤ 6 := b.side0.board.length_units_le
  have h1 : b.side1.board.units.length ≤ 6 := b.side1.board.length_units_le
  rw [units, List.length_append]
  omega

/-! ### Changes of all units -/

/-- The units after a change of all units are what `f` makes of them, in order. -/
theorem changeAll_units {f : BoardUnit → Except Fault BoardUnit} (h : b.changeAll f = .ok b') :
  List.Forall₂ (fun u v => f u = .ok v) b.units b'.units
  := by
  obtain ⟨board0, h0, h⟩ := bind_eq_ok.mp h
  obtain ⟨board1, h1, h⟩ := bind_eq_ok.mp h
  obtain rfl := pure_eq_ok.mp h
  apply List.rel_append (Board.changeAll_units h0) (Board.changeAll_units h1)

/-- What `f` keeps of every unit stays as it is when all units are changed. -/
theorem map_changeAll {α : Type} {f : BoardUnit → Except Fault BoardUnit} {g : BoardUnit → α}
    (hg : ∀ u v, f u = .ok v → g v = g u) (h : b.changeAll f = .ok b') :
  b'.units.map g = b.units.map g
  := Board.map_eq_of_forall hg (changeAll_units h)

/-! ### Looking up units -/

theorem find?_uid {uid : Uid} {u : BoardUnit} (h : b.find? uid = some u) :
  u.uid = uid
  := by simpa using List.find?_some h

theorem mem_of_find? {uid : Uid} {u : BoardUnit} (h : b.find? uid = some u) :
  u ∈ b.units
  := List.mem_of_find?_eq_some h

theorem uid_ne_of_find? {uid : Uid} (h : b.find? uid = none) {u : BoardUnit} (hu : u ∈ b.units) :
  u.uid ≠ uid
  := by simpa using List.find?_eq_none.mp h u hu

/-- Where keys are distinct, an element is found by its key. -/
theorem find?_of_key {α κ : Type} [DecidableEq κ] {key : α → κ} {l : List α}
    (h : (l.map key).Nodup) {a : α} (ha : a ∈ l) :
  l.find? (fun x => key x = key a) = some a
  := by
  induction l with
  | nil => cases ha
  | cons x rest ih =>
    obtain ⟨hx, hrest⟩ := List.nodup_cons.mp h
    rcases List.mem_cons.mp ha with rfl | ha
    · simp
    · have hne : key x ≠ key a := by
        intro heq
        apply hx
        rw [heq]
        exact List.mem_map_of_mem ha
      simpa [hne] using ih hrest ha

/-- Where uids are distinct, a unit is found by its uid. -/
theorem find?_of_mem (h : (b.units.map BoardUnit.uid).Nodup) {u : BoardUnit} (hu : u ∈ b.units) :
  b.find? u.uid = some u
  := find?_of_key h hu

/-- Where uids are distinct, no other unit has the uid of one. -/
theorem uid_ne_of_distinct {l r : List BoardUnit} {u : BoardUnit}
    (h : ((l ++ [u] ++ r).map BoardUnit.uid).Nodup) :
  ∀ v ∈ l ++ r, v.uid ≠ u.uid
  := by
  have hperm : ((l ++ [u] ++ r).map BoardUnit.uid).Perm ((u :: (l ++ r)).map BoardUnit.uid) := by
    apply List.Perm.map
    simp only [List.append_assoc, List.singleton_append]
    apply List.perm_middle
  obtain ⟨hfresh, -⟩ := List.nodup_cons.mp (hperm.nodup_iff.mp h)
  intro v hv heq
  apply hfresh
  rw [← heq]
  apply List.mem_map_of_mem hv

/-- Uids stay distinct when the unit that comes in has the uid of the one that goes, or one
of its own. -/
theorem distinct_turns {l r : List BoardUnit} {old new : Option BoardUnit}
    (h : ((l ++ old.toList ++ r).map BoardUnit.uid).Nodup)
    (huid : ∀ u ∈ new, (∃ v ∈ old, v.uid = u.uid) ∨ ∀ v ∈ l ++ old.toList ++ r, v.uid ≠ u.uid) :
  ((l ++ new.toList ++ r).map BoardUnit.uid).Nodup
  := by
  have hrest : ((l ++ r).map BoardUnit.uid).Nodup := by
    apply List.Nodup.sublist _ h
    apply List.Sublist.map
    simp
  cases new with
  | none => simpa using hrest
  | some u =>
    rcases huid u rfl with ⟨v, rfl, hv⟩ | hfresh
    · simpa [hv] using h
    · have hperm : ((l ++ [u] ++ r).map BoardUnit.uid).Perm
          (u.uid :: (l ++ r).map BoardUnit.uid) := by
        simp only [List.append_assoc, List.singleton_append, List.map_append, List.map_cons]
        apply List.perm_middle
      apply hperm.nodup_iff.mpr
      apply List.nodup_cons.mpr ⟨_, hrest⟩
      intro hmem
      obtain ⟨v, hv, heq⟩ := List.mem_map.mp hmem
      apply hfresh v _ heq
      simp only [List.mem_append] at hv ⊢
      tauto

namespace Coherent

/-- The board of a player is arranged for the player. -/
theorem arranged (hb : b.Coherent) (h : b.side? player = some side) :
  side.board.Arranged player
  := by
  obtain ⟨rfl, rfl⟩ | ⟨rfl, rfl⟩ := side?_cases h
  · exact hb.arranged0
  · exact hb.arranged1

/-- A unit is found on the board of its owner. -/
theorem find?_side (hb : b.Coherent) {uid : Uid} {u : BoardUnit} (h : b.find? uid = some u) :
  ∃ side, b.side? u.owner = some side ∧ side.board.find? uid = some u
    ∧ ∀ v : BoardUnit, v.uid = uid →
      b.replace v = b.setBoard u.owner (side.board.setUnit uid (some v))
  := by
  simp only [Battle.find?, Battle.units, List.find?_append, Option.or_eq_some_iff] at h
  rcases h with h | ⟨h0, h⟩
  · have howner := hb.arranged0.owner (Board.mem_of_find? h)
    use b.side0
    rw [howner]
    use rfl, h
    rintro v rfl
    rw [replace, Board.find?, h]
    rfl
  · have howner := hb.arranged1.owner (Board.mem_of_find? h)
    use b.side1
    rw [howner]
    use rfl, h
    rintro v rfl
    rw [replace, Board.find?, h0]
    rfl

/-- Coherence is about the boards, the uids and the active player only. -/
theorem congr (hb : b.Coherent) (hactive : b'.activePlayer ≤ 1) (huids : b'.uids = b.uids)
    (h0 : b'.side0.board = b.side0.board) (h1 : b'.side1.board = b.side1.board) :
  b'.Coherent
  := by
  have hunits : b'.units = b.units := by simp only [Battle.units, h0, h1]
  use hactive, h0 ▸ hb.arranged0, h1 ▸ hb.arranged1, hunits ▸ hb.distinct
  rw [hunits, huids]
  exact hb.fit

/-- Of a side only the board matters. -/
theorem setSide {s : Side} (h : (b.setBoard player s.board).Coherent) :
  (b.setSide player s).Coherent
  := by
  rw [Battle.setBoard] at h
  rw [Battle.setSide]
  split at h
  · next h0 =>
    rw [if_pos h0]
    exact h.congr h.active rfl rfl rfl
  · next h0 =>
    rw [if_neg h0]
    split at h
    · next h1 =>
      rw [if_pos h1]
      exact h.congr h.active rfl rfl rfl
    · next h1 =>
      rw [if_neg h1]
      exact h

/-- A battle stays coherent when what a player has besides the board changes. -/
theorem shift (hb : b.Coherent) {s : Side} (hside : b.side? player = some side)
    (hboard : s.board = side.board) :
  (b.setSide player s).Coherent
  := by
  apply Coherent.setSide
  rw [hboard, setBoard_board hside]
  exact hb

/-- A unit is replaced in the cell it stands in. -/
theorem replace_turns (hb : b.Coherent) {u v : BoardUnit} (hu : b.find? u.uid = some u)
    (huid : v.uid = u.uid) :
  ∃ side i board, b.side? u.owner = some side ∧ side.board.Turns i (some u) (some v) board
    ∧ b.replace v = b.setBoard u.owner board
  := by
  obtain ⟨side, hside, hfind, hreplace⟩ := hb.find?_side hu
  obtain ⟨i, hturns⟩ := Board.setUnit_turns hfind (some v)
  exact ⟨side, i, _, hside, hturns, hreplace v huid⟩

/-- A battle stays coherent when the content of a cell changes, if the unit that comes in
names the cell and has the uid of the unit that was there or one that no unit has. -/
theorem turns (hb : b.Coherent) {i : Nat} {old new : Option BoardUnit} {board : Board}
    (hside : b.side? player = some side) (h : side.board.Turns i old new board)
    (hnew : ∀ u ∈ new, u.cell.index? = some i ∧ u.owner = player ∧ u.Fit b.uids)
    (huid : ∀ u ∈ new, (∃ v ∈ old, v.uid = u.uid) ∨ ∀ v ∈ b.units, v.uid ≠ u.uid) :
  (b.setBoard player board).Coherent
  := by
  obtain ⟨l, r, hold, hunits⟩ := units_turns hside h
  have harranged := (hb.arranged hside).turns h fun u hu => ⟨(hnew u hu).1, (hnew u hu).2.1⟩
  have hdistinct : ((b.setBoard player board).units.map BoardUnit.uid).Nodup := by
    rw [hunits]
    apply distinct_turns
    · rw [← hold]
      exact hb.distinct
    · rw [← hold]
      exact huid
  have hfit : ∀ u ∈ (b.setBoard player board).units, u.Fit b.uids := by
    intro u hu
    rw [hunits] at hu
    have hrest : u ∈ new.toList ∨ u ∈ b.units := by
      rw [hold]
      simp only [List.mem_append] at hu ⊢
      tauto
    rcases hrest with hu | hu
    · exact (hnew u (Option.mem_toList.mp hu)).2.2
    · exact hb.fit u hu
  obtain ⟨rfl, rfl⟩ | ⟨rfl, rfl⟩ := side?_cases hside
  · exact ⟨hb.active, harranged, hb.arranged1, hdistinct, hfit⟩
  · exact ⟨hb.active, hb.arranged0, harranged, hdistinct, hfit⟩

/-- A battle stays coherent when a unit is taken off a board. -/
theorem take (hb : b.Coherent) {i : Nat} {u : BoardUnit} {board : Board}
    (hside : b.side? player = some side) (h : side.board.Turns i (some u) none board) :
  (b.setBoard player board).Coherent
  := by
  apply hb.turns hside h
  · intro v hv
    cases hv
  · intro v hv
    cases hv

/-- A battle stays coherent when a unit of a new uid is put into a free cell that it
names. -/
theorem put (hb : b.Coherent) {i : Nat} {u : BoardUnit} {board : Board}
    (hside : b.side? player = some side) (h : side.board.Turns i none (some u) board)
    (hcell : u.cell.index? = some i) (howner : u.owner = player) (hfit : u.Fit b.uids)
    (hfresh : ∀ v ∈ b.units, v.uid ≠ u.uid) :
  (b.setBoard player board).Coherent
  := by
  apply hb.turns hside h
  · intro v hv
    obtain rfl := Option.some.inj hv
    exact ⟨hcell, howner, hfit⟩
  · intro v hv
    obtain rfl := Option.some.inj hv
    exact .inr hfresh

/-- A battle stays coherent when a unit is altered in its cell. -/
theorem replace (hb : b.Coherent) {u v : BoardUnit} (hu : b.find? u.uid = some u)
    (h : u.Endures v) :
  (b.replace v).Coherent
  := by
  obtain ⟨side, i, board, hside, hturns, hreplace⟩ := hb.replace_turns hu h.uid
  rw [hreplace]
  obtain ⟨l, r, hold, -⟩ := units_turns hside hturns
  have hfit : u.Fit b.uids := hb.fit u (by simp [hold])
  obtain ⟨hcell, howner⟩ := hb.arranged hside i u hturns.held
  apply hb.turns hside hturns
  · intro w hw
    obtain rfl := Option.some.inj hw
    rw [h.cell, h.owner]
    exact ⟨hcell, howner, by rw [h.uid]; exact hfit.issued, h.bounded hfit.bounded⟩
  · intro w hw
    obtain rfl := Option.some.inj hw
    exact .inl ⟨u, rfl, h.uid.symm⟩

/-- A battle stays coherent when all units are changed in place. -/
theorem changeAll (hb : b.Coherent) {f : BoardUnit → Except Fault BoardUnit}
    (hf : ∀ u v, f u = .ok v → u.Endures v) (h : b.changeAll f = .ok b') :
  b'.Coherent
  := by
  have hunits := changeAll_units h
  have hcell : ∀ u v, f u = .ok v → v.cell = u.cell ∧ v.owner = u.owner :=
    fun u v hv => ⟨(hf u v hv).cell, (hf u v hv).owner⟩
  have huids : b'.units.map BoardUnit.uid = b.units.map BoardUnit.uid :=
    map_changeAll (fun u v hv => (hf u v hv).uid) h
  have hdistinct := huids ▸ hb.distinct
  obtain ⟨board0, h0, h⟩ := bind_eq_ok.mp h
  obtain ⟨board1, h1, h⟩ := bind_eq_ok.mp h
  obtain rfl := pure_eq_ok.mp h
  constructor
  · exact hb.active
  · exact hb.arranged0.changeAll hcell h0
  · exact hb.arranged1.changeAll hcell h1
  · exact hdistinct
  · intro v hv
    obtain ⟨i, hi⟩ := List.mem_iff_getElem?.mp hv
    obtain ⟨u, hu, huv⟩ := Board.getElem?_of_forall hunits hi
    have hfit := hb.fit u (List.mem_of_getElem? hu)
    constructor
    · rw [(hf u v huv).uid]
      exact hfit.issued
    · exact (hf u v huv).bounded hfit.bounded

end Coherent

end Battle

end CardBattle
