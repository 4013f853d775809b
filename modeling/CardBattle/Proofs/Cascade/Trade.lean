import CardBattle.Proofs.Battle.Integrity
import CardBattle.Proofs.Cascade.Exchange
import CardBattle.Proofs.Cascade.Move

/-!
# Units that change places and change back

A step that names two different units of one player makes them change places: each comes into the
cell of the other and names it, all other cells hold what they held, and apart from one line in the
log nothing else in the battle changes.  The step names the same two units afterwards, so that
it takes them back when it is run again (`swap_exchanges`).
-/

namespace CardBattle

namespace Board

/-- What a cell holds is a unit of the board. -/
theorem mem_units_of_content? {b : Board} {cell : Cell} {u : BoardUnit}
    (h : b.content? cell = some (some u)) :
  u ∈ b.units
  := by
  obtain ⟨i, -, hi⟩ := Option.bind_eq_some_iff.mp h
  simp only [Board.units, List.mem_filterMap, id_eq, exists_eq_right]
  exact List.mem_of_getElem? hi

/-- A board is known by what its cells hold. -/
theorem eq_of_content? {b b' : Board} (h : ∀ cell, b'.content? cell = b.content? cell) :
  b' = b
  := by
  have hcells : b'.cells = b.cells := by
    apply List.ext_getElem?
    intro i
    by_cases hi : i < boardSize
    · have hcell := Cell.getElem?_all_iff.mp (List.getElem?_eq_getElem (l := Cell.all) hi)
      have hsame := h Cell.all[i]
      rwa [content?, content?, hcell] at hsame
    · rw [List.getElem?_eq_none (by rw [b'.length_eq]; omega),
        List.getElem?_eq_none (by rw [b.length_eq]; omega)]
  cases b
  cases b'
  cases hcells
  rfl

/-- Two units that change places and change back are where they were. -/
theorem Trades.back {a c : BoardUnit} {b m b' : Board} (ha : b.content? a.cell = some (some a))
    (hc : b.content? c.cell = some (some c)) (h : b.Trades a c m)
    (h' : m.Trades { a with cell := c.cell } { c with cell := a.cell } b') :
  b' = b
  := by
  apply eq_of_content?
  intro cell
  by_cases hcella : cell = a.cell
  · rw [hcella, ha]
    exact h'.first
  · by_cases hcellc : cell = c.cell
    · rw [hcellc, hc]
      exact h'.second
    · rw [h'.others cell hcellc hcella, h.others cell hcella hcellc]

end Board

/-- A reference names the unit of the same uid in another battle. -/
theorem UnitRef.resolve?_of_find? {ref : UnitRef} {b b' : Battle} {actor u v : BoardUnit}
    {event : Event} (hu : ref.resolve? b actor event = some u) (hv : b'.find? u.uid = some v) :
  ref.resolve? b' actor event = some v
  := by
  obtain ⟨uid, huid, hfind⟩ := Option.bind_eq_some_iff.mp hu
  rw [Battle.find?_uid hfind] at hv
  exact Option.bind_eq_some_iff.mpr ⟨uid, huid, hv⟩

theorem Battle.setBoard_record (b : Battle) (player : UInt8) (board : Board) (line : String) :
  (b.record line).setBoard player board = (b.setBoard player board).record line
  := by
  unfold Battle.setBoard
  split
  · rfl
  · split <;> rfl

/-- In a coherent battle every unit is in the cell that it names, on the board of its owner. -/
theorem Battle.Coherent.content? {b : Battle} (hb : b.Coherent) {u : BoardUnit}
    (hu : b.find? u.uid = some u) {side : Side} (hside : b.side? u.owner = some side) :
  side.board.content? u.cell = some (some u)
  := by
  obtain ⟨side', hside', hfind, -⟩ := hb.find?_side hu
  obtain rfl := Option.some.inj (hside.symm.trans hside')
  exact (hb.arranged hside).content? (Board.mem_of_find? hfind)

variable {rules : Ruleset} {b : Battle} {actor a c : BoardUnit} {event : Event}
  {first second : UnitRef}

/-- In a coherent battle two units that a step has made change places change back when the step is
run again. -/
theorem stepSwap_back (hb : b.Coherent) (ha : first.resolve? b actor event = some a)
    (hc : second.resolve? b actor event = some c) (hne : a.uid ≠ c.uid)
    (howner : a.owner = c.owner) {side : Side} {board : Board} (line : String)
    (hside : b.side? a.owner = some side) (htrades : side.board.Trades a c board)
    (hcoherent : (b.setBoard a.owner board).Coherent) :
  stepSwap rules actor event first second ((b.setBoard a.owner board).record line)
    = .ok ((b.record line).record
      (rules.label a ++ " e " ++ rules.label c ++ " si scambiano di posto"), .ran)
  := by
  have hswapped : ((b.setBoard a.owner board).record line).Coherent :=
    hcoherent.congr hcoherent.active rfl rfl rfl
  have hside' : ((b.setBoard a.owner board).record line).side? a.owner
      = some { side with board } := Battle.side?_setBoard hside board
  have hfound : ∀ u : BoardUnit, u ∈ board.units →
      ((b.setBoard a.owner board).record line).find? u.uid = some u := by
    intro u hu
    exact Battle.find?_of_mem hswapped.distinct (Battle.mem_units_of_side hside' hu)
  have hfounda := hfound _ (Board.mem_units_of_content? htrades.first)
  have hfoundc := hfound _ (Board.mem_units_of_content? htrades.second)
  have ha' := UnitRef.resolve?_of_find? ha hfounda
  have hc' := UnitRef.resolve?_of_find? hc hfoundc
  obtain ⟨side', board', hsame, htrades', -, -, hstep⟩ :=
    stepSwap_trades hswapped rules ha' hc' hne howner
  obtain rfl : { side with board } = side' := Option.some.inj (hside'.symm.trans hsame)
  obtain rfl : board' = side.board := by
    apply htrades.back _ _ htrades'
    · exact hb.content? (find?_of_resolve? ha) hside
    · exact hb.content? (find?_of_resolve? hc) (howner ▸ hside)
  rw [hstep, Battle.setBoard_record, Battle.setBoard_setBoard, Battle.setBoard_board hside]
  rfl

/-- A step that names two different units of one player makes them change places, and apart from
that it only adds a line to the log.  Run again, it takes the boards back to what they were. -/
theorem swap_exchanges (rules : Ruleset) (hb : b.corruption? = none)
    (ha : first.resolve? b actor event = some a) (hc : second.resolve? b actor event = some c)
    (hne : a ≠ c) (howner : a.owner = c.owner) :
  let step := Step.swapPositions first second
  let line := rules.label a ++ " e " ++ rules.label c ++ " si scambiano di posto"
  ∃ side board, b.side? a.owner = some side
    ∧ side.board.content? a.cell = some (some a) ∧ side.board.content? c.cell = some (some c)
    ∧ side.board.Trades a c board
    ∧ rules.run actor event [step] b = .ok ((b.setBoard a.owner board).record line, .ran)
    ∧ rules.run actor event [step] ((b.setBoard a.owner board).record line)
      = .ok ((b.record line).record line, .ran)
  := by
  intro step line
  have hcoherent := (Battle.corruption?_eq_none_iff.mp hb).toCoherent
  have hfinda := find?_of_resolve? ha
  have hfindc := find?_of_resolve? hc
  have huid : a.uid ≠ c.uid := by
    intro heq
    rw [heq, hfindc] at hfinda
    exact hne (Option.some.inj hfinda).symm
  obtain ⟨side, board, hside, htrades, -, hswapped, hstep⟩ :=
    stepSwap_trades hcoherent rules ha hc huid howner
  refine ⟨side, board, hside, hcoherent.content? hfinda hside,
    hcoherent.content? hfindc (howner ▸ hside), htrades, ?_, ?_⟩
  · rw [Ruleset.run_single]
    exact hstep
  · rw [Ruleset.run_single]
    exact stepSwap_back hcoherent ha hc huid howner line hside htrades hswapped

/-- A unit in front that is wounded and has attacked. -/
def BoardUnit.sentry : BoardUnit :=
  { uid := ⟨1⟩, cardId := "sentry", owner := 1, cell := ⟨.front, 2⟩, vitality := 1
    vitalityMax := 4, impact := 2, defence := 0, velocity := 1, hasAttacked := true }

/-- A unit at the back that is fresh. -/
def BoardUnit.relief : BoardUnit :=
  { uid := ⟨2⟩, cardId := "sentry", owner := 1, cell := ⟨.back, 0⟩, vitality := 4
    vitalityMax := 4, impact := 2, defence := 0, velocity := 1 }

/-- A sentry and its relief on one board. -/
def Battle.guard : Battle :=
  { Battle.start 1 with
    side1 := { board := ⟨[none, none, some .sentry, some .relief, none, none], rfl⟩ }
    uids := ⟨3⟩ }

/-- The sentry and its relief change places, and back. -/
theorem swap_exchanges_guard :
  let rules : Ruleset := { catalog := ⟨[], List.nodup_nil⟩ }
  let event : Event := { trigger := .activate, player := 1, target := some ⟨2⟩ }
  let step := Step.swapPositions .self .target
  let line := "u_1 e u_2 si scambiano di posto"
  Battle.guard.corruption? = none
    ∧ ∃ board, Battle.guard.side1.board.Trades .sentry .relief board
      ∧ rules.run .sentry event [step] .guard
        = .ok ((Battle.guard.setBoard 1 board).record line, .ran)
      ∧ rules.run .sentry event [step] ((Battle.guard.setBoard 1 board).record line)
        = .ok ((Battle.guard.record line).record line, .ran)
  := by
  intro rules event step line
  have hb : Battle.guard.corruption? = none := by decide
  have hself : UnitRef.self.resolve? .guard .sentry event = some .sentry := rfl
  have htarget : UnitRef.target.resolve? .guard .sentry event = some .relief := rfl
  have hline : rules.label .sentry ++ " e " ++ rules.label .relief
      ++ " si scambiano di posto" = line := by decide
  obtain ⟨side, board, hside, -, -, htrades, hswap, hback⟩ :=
    swap_exchanges rules hb hself htarget (by decide) rfl
  obtain rfl : Battle.guard.side1 = side := Option.some.inj hside
  rw [hline] at hswap hback
  exact ⟨hb, board, htrades, hswap, hback⟩

end CardBattle
