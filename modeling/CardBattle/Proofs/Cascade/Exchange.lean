import CardBattle.Proofs.Battle.Coherence
import CardBattle.Proofs.Cascade.Touch

/-!
# Units that change their cells

Two units of one player exchange their cells in four changes of single cells: both are taken
off the board and put back, each into the cell of the other.  In a coherent battle no change
fails, the two units have changed places (`Board.Trades`), the battle is coherent again, and its
units are the same wherever they stand (`Battle.Rearranges`).
-/

namespace CardBattle

/-- The unit, wherever it stands. -/
def BoardUnit.anywhere (u : BoardUnit) : BoardUnit :=
  { u with cell := ⟨.front, 0⟩ }

/-- A unit is as fit in another cell. -/
theorem BoardUnit.Fit.elsewhere {counter : UidCounter} {u : BoardUnit} {cell : Cell}
    (h : u.Fit counter) :
  ({ u with cell } : BoardUnit).Fit counter
  := ⟨h.issued, h.bounded⟩

/-- Two units have changed places on a board: each is in the cell of the other and names it, and
all other cells hold what they held. -/
structure Board.Trades (a c : BoardUnit) (b b' : Board) : Prop where
  first : b'.content? c.cell = some (some { a with cell := c.cell })
  second : b'.content? a.cell = some (some { c with cell := a.cell })
  others : ∀ cell, cell ≠ a.cell → cell ≠ c.cell → b'.content? cell = b.content? cell

/-- The units are the same wherever they stand. -/
def Board.Rearranges (b b' : Board) : Prop :=
  (b'.units.map BoardUnit.anywhere).Perm (b.units.map BoardUnit.anywhere)

namespace Battle

/-- The units of a player are the same wherever they stand, and nothing else differs. -/
structure Rearranges (b b' : Battle) : Prop where
  board : ∃ player side board, b.side? player = some side
    ∧ side.board.Rearranges board ∧ b' = b.setBoard player board

variable {b b' : Battle} {player : UInt8} {side : Side}

/-- The units of both boards are the same wherever they stand. -/
theorem Rearranges.units (h : b.Rearranges b') :
  (b'.units.map BoardUnit.anywhere).Perm (b.units.map BoardUnit.anywhere)
  := by
  obtain ⟨player, side, board, hside, hboard, rfl⟩ := h.board
  obtain ⟨l, r, hold, hnew⟩ := units_setBoard hside
  rw [hold, hnew]
  simp only [List.map_append]
  apply List.Perm.append_right
  apply List.Perm.append_left
  apply hboard

/-- A unit after the units were rearranged is one from before, in another cell. -/
theorem Rearranges.exists_unit (h : b.Rearranges b') {v : BoardUnit} (hv : v ∈ b'.units) :
  ∃ u ∈ b.units, v = { u with cell := v.cell }
  := by
  have hmem : v.anywhere ∈ b.units.map BoardUnit.anywhere :=
    h.units.subset (List.mem_map_of_mem hv)
  obtain ⟨u, hu, heq⟩ := List.mem_map.mp hmem
  use u, hu
  calc v = { v.anywhere with cell := v.cell } := rfl
    _ = { u with cell := v.cell } := by rw [← heq]; rfl

/-- What does not depend on cells holds of all units after they were rearranged if it did so
before. -/
theorem Rearranges.forall_units {P : BoardUnit → Prop}
    (hcell : ∀ (u : BoardUnit) (cell : Cell), P u → P { u with cell }) (h : b.Rearranges b')
    (hunits : ∀ u ∈ b.units, P u) :
  ∀ u ∈ b'.units, P u
  := by
  intro v hv
  obtain ⟨u, hu, hsame⟩ := h.exists_unit hv
  rw [hsame]
  apply hcell _ _ (hunits u hu)

theorem Rearranges.length_units (h : b.Rearranges b') :
  b'.units.length = b.units.length
  := by simpa using h.units.length_eq

/-- No unit has the uid of one that has been taken off a board. -/
theorem Coherent.fresh_of_taken (hb : b.Coherent) {i : Nat} {u : BoardUnit} {board : Board}
    (hside : b.side? player = some side) (h : side.board.Turns i (some u) none board) :
  ∀ v ∈ (b.setBoard player board).units, v.uid ≠ u.uid
  := by
  obtain ⟨l, r, hold, hnew⟩ := units_turns hside h
  have hdistinct := hb.distinct
  rw [hold] at hdistinct
  intro v hv
  apply uid_ne_of_distinct hdistinct
  rw [hnew] at hv
  simpa using hv

/-- The units that are left when one is taken off a board were there before. -/
theorem mem_of_taken {i : Nat} {old : Option BoardUnit} {board : Board}
    (hside : b.side? player = some side) (h : side.board.Turns i old none board) {v : BoardUnit}
    (hv : v ∈ (b.setBoard player board).units) :
  v ∈ b.units
  := by
  obtain ⟨l, r, hold, hnew⟩ := units_turns hside h
  rw [hnew] at hv
  rw [hold]
  simp only [Option.toList_none, List.append_nil, List.mem_append] at hv ⊢
  tauto

/-- The units when one has been put are that one and those from before. -/
theorem mem_of_put {i : Nat} {u : BoardUnit} {board : Board}
    (hside : b.side? player = some side) (h : side.board.Turns i none (some u) board)
    {v : BoardUnit} (hv : v ∈ (b.setBoard player board).units) :
  v = u ∨ v ∈ b.units
  := by
  obtain ⟨l, r, hold, hnew⟩ := units_turns hside h
  rw [hnew] at hv
  rw [hold]
  simp only [Option.toList_some, Option.toList_none, List.append_nil, List.mem_append,
    List.mem_singleton] at hv ⊢
  tauto

/-! ### The exchange of two units -/

/-- Two units of a board are taken off and put back each into the cell of the other. -/
theorem Coherent.exchange (hb : b.Coherent) (hside : b.side? player = some side)
    {a c : BoardUnit} (ha : side.board.find? a.uid = some a) (hc : side.board.find? c.uid = some c)
    (hne : a.uid ≠ c.uid) :
  ∃ board1 board2 board3 board4, side.board.take? a.uid = some (a, board1)
    ∧ board1.take? c.uid = some (c, board2)
    ∧ board2.put { a with cell := c.cell } = .ok board3
    ∧ board3.put { c with cell := a.cell } = .ok board4
    ∧ side.board.Trades a c board4
    ∧ b.Rearranges (b.setBoard player board4)
    ∧ (b.setBoard player board4).Coherent
  := by
  obtain ⟨i, h1⟩ := Board.setUnit_turns ha none
  generalize hboard1 : side.board.setUnit a.uid none = board1 at h1
  have hc1 : board1.find? c.uid = some c := by
    rw [← hboard1, Board.find?_setUnit_none (Ne.symm hne), hc]
  obtain ⟨j, h2⟩ := Board.setUnit_turns hc1 none
  generalize hboard2 : board1.setUnit c.uid none = board2 at h2
  have hside1 := side?_setBoard hside board1
  have hside2 := side?_setBoard hside1 board2
  have hb1 := hb.take hside h1
  have hb2 := hb1.take hside1 h2
  obtain ⟨hacell, haowner⟩ := hb.arranged hside i a h1.held
  obtain ⟨hccell, hcowner⟩ := hb1.arranged hside1 j c h2.held
  -- the first unit has left its cell, so the other stands elsewhere
  have hij : j ≠ i := by
    rintro rfl
    have hheld := h2.held
    rw [h1.holds] at hheld
    cases hheld
  obtain ⟨board3, hput3, h3⟩ := Board.put_turns (u := { a with cell := c.cell }) hccell h2.holds
  have hfree : board3.cells[i]? = some none := by
    rw [h3.cells_eq, List.getElem?_set_ne hij, h2.cells_eq, List.getElem?_set_ne hij, h1.holds]
  obtain ⟨board4, hput4, h4⟩ := Board.put_turns (u := { c with cell := a.cell }) hacell hfree
  have hafit := hb.fit a (mem_units_of_side hside (Board.mem_of_find? ha))
  have hcfit := hb.fit c (mem_units_of_side hside (Board.mem_of_find? hc))
  have hafresh := hb.fresh_of_taken hside h1
  have hcfresh := hb1.fresh_of_taken hside1 h2
  have hb3 : (((b.setBoard player board1).setBoard player board2).setBoard player
      board3).Coherent := by
    apply hb2.put hside2 h3 hccell haowner
    · rw [setBoard_uids, setBoard_uids]
      apply hafit.elsewhere
    · intro v hv
      apply hafresh v (mem_of_taken hside1 h2 hv)
  have hside3 := side?_setBoard hside2 board3
  have hb4 := by
    apply hb3.put hside3 h4 hacell hcowner
    · rw [setBoard_uids, setBoard_uids, setBoard_uids]
      apply hcfit.elsewhere
    · intro v hv
      rcases mem_of_put hside2 h3 hv with rfl | hv
      · apply hne
      · apply hcfresh v hv
  have htrades : side.board.Trades a c board4 := by
    have hcells : c.cell ≠ a.cell := by
      intro heq
      apply hij
      rw [heq, hacell] at hccell
      exact (Option.some.inj hccell).symm
    constructor
    · rw [h4.content? hacell, if_neg hcells, h3.content? hccell, if_pos rfl]
    · rw [h4.content? hacell, if_pos rfl]
    · intro cell ha hc
      rw [h4.content? hacell, if_neg ha, h3.content? hccell, if_neg hc, h2.content? hccell,
        if_neg hc, h1.content? hacell, if_neg ha]
  have hboard : side.board.Rearranges board4 := by
    have hold := h1.perm_taken.trans (h2.perm_taken.cons a)
    have hnew := h4.perm_put.trans (h3.perm_put.cons _)
    have hswap := (hnew.map BoardUnit.anywhere).trans (.swap _ _ _)
    apply hswap.trans
    apply (hold.map BoardUnit.anywhere).symm
  simp only [setBoard_setBoard] at hb4
  use board1, board2, board3, board4
  refine ⟨?_, ?_, hput3, hput4, htrades, ⟨player, side, board4, hside, hboard, rfl⟩, hb4⟩
  · apply Board.take?_eq_some.mpr ⟨ha, hboard1⟩
  · apply Board.take?_eq_some.mpr ⟨hc1, hboard2⟩

end Battle

/-- In a coherent battle a step that names two different units of one player makes them change
places. -/
theorem stepSwap_trades {b : Battle} (hb : b.Coherent) (rules : Ruleset) {actor : BoardUnit}
    {event : Event} {first second : UnitRef} {a c : BoardUnit}
    (ha : first.resolve? b actor event = some a) (hc : second.resolve? b actor event = some c)
    (hne : a.uid ≠ c.uid) (howner : a.owner = c.owner) :
  ∃ side board, b.side? a.owner = some side ∧ side.board.Trades a c board
    ∧ b.Rearranges (b.setBoard a.owner board) ∧ (b.setBoard a.owner board).Coherent
    ∧ stepSwap rules actor event first second b = .ok ((b.setBoard a.owner board).record
      (rules.label a ++ " e " ++ rules.label c ++ " si scambiano di posto"), .ran)
  := by
  obtain ⟨side, hside, hfinda, -⟩ := hb.find?_side (find?_of_resolve? ha)
  obtain ⟨side', hside', hfindc, -⟩ := hb.find?_side (find?_of_resolve? hc)
  obtain rfl : side = side' := by
    rw [howner, hside'] at hside
    exact (Option.some.inj hside).symm
  obtain ⟨board1, board2, board3, board4, htake1, htake2, hput3, hput4, htrades, hrearranges,
    hcoherent⟩ := hb.exchange hside hfinda hfindc hne
  refine ⟨side, board4, hside, htrades, hrearranges, hcoherent, ?_⟩
  rw [stepSwap, ha, hc]
  dsimp only
  rw [if_neg (by simp [hne, howner]), hside]
  dsimp only
  rw [htake1]
  dsimp only [exchange]
  rw [htake2]
  dsimp only
  rw [hput3]
  dsimp only [bind, Except.bind, Battle.putBack]
  rw [hput4]
  rfl

/-- A step that does not name two different units of one player is skipped. -/
theorem stepSwap_skips {b : Battle} {rules : Ruleset} {actor : BoardUnit} {event : Event}
    {first second : UnitRef}
    (h : ∀ a c, first.resolve? b actor event = some a → second.resolve? b actor event = some c →
      a.uid = c.uid ∨ a.owner ≠ c.owner) :
  stepSwap rules actor event first second b = .ok (b, .skipped)
  := by
  rw [stepSwap]
  split
  · next a c ha hc =>
    rw [if_pos (h a c ha hc)]
    rfl
  · rfl

/-- In a coherent battle the step that exchanges two units does not fail. -/
theorem stepSwap_spec {b : Battle} (hb : b.Coherent) (rules : Ruleset) (actor : BoardUnit)
    (event : Event) (first second : UnitRef) :
  ∃ b' r, stepSwap rules actor event first second b = .ok (b', r)
    ∧ (b' = b ∨ ∃ m, b.Rearranges m ∧ m.Coherent ∧ m.Logs b')
  := by
  by_cases h : ∀ a c, first.resolve? b actor event = some a →
      second.resolve? b actor event = some c → a.uid = c.uid ∨ a.owner ≠ c.owner
  · exact ⟨b, .skipped, stepSwap_skips h, .inl rfl⟩
  · simp only [not_forall, not_or, not_not, exists_prop] at h
    obtain ⟨a, c, ha, hc, hne, howner⟩ := h
    obtain ⟨side, board, -, -, hrearranges, hcoherent, hstep⟩ :=
      stepSwap_trades hb rules ha hc hne howner
    refine ⟨_, _, hstep, .inr ⟨b.setBoard a.owner board, hrearranges, hcoherent, ?_⟩⟩
    apply Battle.record_logs

/-- What a step that exchanges two units leads to. -/
theorem stepSwap_leads {rules : Ruleset} {actor : BoardUnit} {event : Event}
    {first second : UnitRef} {b b' : Battle} (hb : b.Coherent)
    (h : (stepSwap rules actor event first second).Leads b b') :
  b' = b ∨ ∃ m, b.Rearranges m ∧ m.Coherent ∧ m.Logs b'
  := by
  obtain ⟨r, h⟩ := h
  obtain ⟨c, s, hc, hspec⟩ := stepSwap_spec hb rules actor event first second
  obtain ⟨rfl, -⟩ := Prod.mk.inj (Except.ok.inj (hc.symm.trans h))
  apply hspec

end CardBattle
