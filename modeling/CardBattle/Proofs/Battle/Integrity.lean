import CardBattle.Proofs.Battle.Coherence

/-!
# What the check of integrity decides

The check scans the cells of both boards for a fault, remembering the uids it has come
across.  It finds none exactly when the battle is sound (`corruption?_eq_none_iff`).
-/

namespace CardBattle

/-! ### Cells in scan order -/

/-- The cells of a board are listed by their numbers. -/
theorem Cell.getElem?_all_iff {i : Nat} {cell : Cell} :
  Cell.all[i]? = some cell ↔ cell.index? = some i
  := by
  constructor
  · intro h
    have hi : i < 6 := (List.getElem?_eq_some_iff.mp h).1
    have hall : ∀ j : Fin 6, Cell.all[j.val]?.all (fun c => c.index? = some j.val) = true := by
      decide
    simpa [h] using hall ⟨i, hi⟩
  · intro h
    obtain ⟨lane, column⟩ := cell
    rw [Cell.index?] at h
    split at h
    · next hcolumn =>
      obtain rfl := Option.some.inj h
      obtain hc | hc | hc : column = 0 ∨ column = 1 ∨ column = 2 := by
        simp only [← UInt64.toNat_inj, columns] at hcolumn ⊢
        change column.toNat = 0 ∨ column.toNat = 1 ∨ column.toNat = 2
        omega
      all_goals subst hc; cases lane <;> rfl
    · cases h

namespace Battle

/-! ### Placements -/

/-- A placement pairs a unit with the number of its cell. -/
theorem mem_placementsOf {player : UInt8} {board : Board} {p : Placement} :
  p ∈ placementsOf player board
    ↔ p.player = player ∧ ∃ i, board.cells[i]? = some (some p.unit) ∧ p.cell.index? = some i
  := by
  obtain ⟨player', cell, u⟩ := p
  rw [placementsOf, List.mem_filterMap]
  simp only [Prod.exists, Option.map_eq_some_iff, Placement.mk.injEq, List.mem_iff_getElem?,
    List.getElem?_zip_eq_some, Cell.getElem?_all_iff]
  constructor
  · rintro ⟨c, content, ⟨i, hc, hcontent⟩, v, rfl, rfl, rfl, rfl⟩
    use rfl, i, hcontent
  · rintro ⟨rfl, i, hcontent, hc⟩
    use cell, some u, ⟨i, hc, hcontent⟩, u

/-- The units of the placements on a board are its units, in scan order. -/
theorem map_unit_placementsOf (player : UInt8) (board : Board) :
  (placementsOf player board).map Placement.unit = board.units
  := by
  have hlength : Cell.all.length = board.cells.length := board.length_eq.symm
  rw [placementsOf, Board.units]
  rw [List.map_filterMap]
  generalize Cell.all = cells at hlength
  generalize board.cells = contents at hlength
  induction contents generalizing cells with
  | nil => simp
  | cons content rest ih =>
    cases cells with
    | nil => cases hlength
    | cons cell cells =>
      have hrest := ih cells (by simpa using hlength)
      cases content with
      | none => simpa using hrest
      | some u => simpa using hrest

/-- The units of the placements on both boards are the units of the battle. -/
theorem map_unit_placements (b : Battle) :
  b.placements.map Placement.unit = b.units
  := by
  rw [placements, List.map_append, map_unit_placementsOf, map_unit_placementsOf]
  rfl

/-- A board is arranged when every placement is at the cell and with the player that its
unit names. -/
theorem arranged_iff_placementsOf {player : UInt8} {board : Board} :
  board.Arranged player
    ↔ ∀ p ∈ placementsOf player board, p.unit.cell = p.cell ∧ p.unit.owner = p.player
  := by
  constructor
  · intro h p hp
    obtain ⟨hplayer, i, hu, hcell⟩ := mem_placementsOf.mp hp
    obtain ⟨hi, howner⟩ := h i p.unit hu
    have hsame := (Cell.getElem?_all_iff.mpr hi).symm.trans (Cell.getElem?_all_iff.mpr hcell)
    exact ⟨Option.some.inj hsame, hplayer ▸ howner⟩
  · intro h i u hu
    have hi : i < Cell.all.length := by
      rw [show Cell.all.length = board.cells.length from board.length_eq.symm]
      exact (List.getElem?_eq_some_iff.mp hu).1
    have hcell := Cell.getElem?_all_iff.mp (List.getElem?_eq_getElem hi)
    have hp := h ⟨player, Cell.all[i], u⟩ (mem_placementsOf.mpr ⟨rfl, i, hu, hcell⟩)
    rw [show u.cell = Cell.all[i] from hp.1]
    exact ⟨hcell, hp.2⟩

/-! ### Faults -/

/-- What a placement without a fault satisfies by itself. -/
structure Placed (counter : UidCounter) (p : Placement) : Prop where
  cell : p.unit.cell = p.cell
  owner : p.unit.owner = p.player
  issued : counter.hasIssued p.unit.uid
  alive : p.unit.isAlive
  bounded : p.unit.vitality ≤ p.unit.vitalityMax

/-- A placement has no fault when it is in order by itself and its uid is new. -/
theorem placementFault?_eq_none_iff {counter : UidCounter} {seen : List Uid} {p : Placement} :
  placementFault? counter seen p = none ↔ Placed counter p ∧ p.unit.uid ∉ seen
  := by
  dsimp only [placementFault?]
  constructor
  · intro h
    split at h <;> try cases h
    split at h <;> try cases h
    split at h <;> try cases h
    split at h <;> try cases h
    split at h <;> try cases h
    next hcell howner hseen hissued hvitality =>
    constructor
    · constructor
      · simpa using hcell
      · simpa using howner
      · simpa using hissued
      · simp only [BoardUnit.isAlive, decide_eq_true_eq]
        simp only [Int32.le_iff_toInt_le, Int32.lt_iff_toInt_lt] at hvitality ⊢
        omega
      · simp only [Int32.le_iff_toInt_le, Int32.lt_iff_toInt_lt] at hvitality ⊢
        omega
    · exact hseen
  · rintro ⟨⟨hcell, howner, hissued, halive, hbounded⟩, hseen⟩
    simp only [BoardUnit.isAlive, decide_eq_true_eq] at halive
    simp only [Int32.le_iff_toInt_le, Int32.lt_iff_toInt_lt] at *
    rw [if_neg (by simpa using hcell), if_neg (by simpa using howner), if_neg hseen,
      if_neg (by simpa using hissued), if_neg (by omega)]

/-- The scan finds no fault when all placements are in order and no uid occurs twice. -/
theorem firstFault?_eq_none_iff {counter : UidCounter} {seen : List Uid}
    {ps : List Placement} :
  firstFault? counter seen ps = none
    ↔ (∀ p ∈ ps, Placed counter p) ∧ (ps.map fun p => p.unit.uid).Nodup
      ∧ ∀ p ∈ ps, p.unit.uid ∉ seen
  := by
  induction ps generalizing seen with
  | nil => simp [firstFault?]
  | cons p rest ih =>
    rw [firstFault?]
    cases hp : placementFault? counter seen p with
    | some c =>
      have hfault : ¬(Placed counter p ∧ p.unit.uid ∉ seen) := by
        rw [← placementFault?_eq_none_iff, hp]
        simp
      simp only [reduceCtorEq, false_iff]
      rintro ⟨hplaced, -, hseen⟩
      apply hfault
      exact ⟨hplaced p (by simp), hseen p (by simp)⟩
    | none =>
      obtain ⟨hplaced, hseen⟩ := placementFault?_eq_none_iff.mp hp
      rw [ih, List.map_cons, List.nodup_cons, List.forall_mem_cons, List.forall_mem_cons]
      constructor
      · rintro ⟨hall, hnodup, hnew⟩
        refine ⟨⟨hplaced, hall⟩, ⟨?_, hnodup⟩, hseen, fun q hq => ?_⟩
        · intro hmem
          obtain ⟨q, hq, heq⟩ := List.mem_map.mp hmem
          apply hnew q hq
          simp [heq]
        · exact fun hmem => hnew q hq (List.mem_cons_of_mem _ hmem)
      · rintro ⟨⟨-, hall⟩, ⟨hp', hnodup⟩, -, hnew⟩
        refine ⟨hall, hnodup, fun q hq hmem => ?_⟩
        rcases List.mem_cons.mp hmem with heq | hmem
        · apply hp'
          rw [← heq]
          exact List.mem_map_of_mem hq
        · exact hnew q hq hmem

/-- Of the uids that a placement is behind only the set matters. -/
theorem placementFault?_congr {counter : UidCounter} {seen seen' : List Uid}
    (h : ∀ uid, uid ∈ seen ↔ uid ∈ seen') (p : Placement) :
  placementFault? counter seen p = placementFault? counter seen' p
  := by simp only [placementFault?, h]

theorem firstFault?_congr {counter : UidCounter} {seen seen' : List Uid}
    (h : ∀ uid, uid ∈ seen ↔ uid ∈ seen') (ps : List Placement) :
  firstFault? counter seen ps = firstFault? counter seen' ps
  := by
  induction ps generalizing seen seen' with
  | nil => rfl
  | cons p rest ih =>
    rw [firstFault?, firstFault?, placementFault?_congr h]
    have hnext : ∀ uid, uid ∈ p.unit.uid :: seen ↔ uid ∈ p.unit.uid :: seen' := by
      intro uid
      rw [List.mem_cons, List.mem_cons, h uid]
    rw [ih hnext]

/-- Some placements are scanned behind the units of others. -/
theorem firstFault?_append {counter : UidCounter} {seen : List Uid} (ps qs : List Placement) :
  firstFault? counter seen (ps ++ qs)
    = (firstFault? counter seen ps
      <|> firstFault? counter ((ps.map fun p => p.unit.uid) ++ seen) qs)
  := by
  induction ps generalizing seen with
  | nil => rfl
  | cons p rest ih =>
    rw [List.cons_append, firstFault?, firstFault?]
    cases placementFault? counter seen p with
    | some c => rfl
    | none =>
      dsimp only
      rw [ih]
      cases firstFault? counter (p.unit.uid :: seen) rest with
      | some c => rfl
      | none =>
        apply firstFault?_congr
        intro uid
        rw [List.mem_append, List.map_cons, List.mem_append, List.mem_cons, List.mem_cons, or_assoc]
        exact or_left_comm

/-- A board has no room for too many units. -/
theorem boardFault?_eq (counter : UidCounter) (seen : List Uid) (player : UInt8) (board : Board) :
  boardFault? counter seen player board = firstFault? counter seen (placementsOf player board)
  := if_neg (Nat.not_lt.mpr board.length_units_le)

/-- The check scans the placements on both boards one after another. -/
theorem corruption?_eq (b : Battle) :
  b.corruption? = if 1 < b.activePlayer then some (.invalidActivePlayer b.activePlayer)
    else firstFault? b.uids [] b.placements
  := by
  have huids : ((placementsOf 0 b.side0.board).map fun p => p.unit.uid)
      = b.side0.board.units.map BoardUnit.uid := by
    rw [← map_unit_placementsOf 0, List.map_map]
    rfl
  rw [corruption?, boardFault?_eq, boardFault?_eq, placements, firstFault?_append, huids,
    List.append_nil]

/-- The check finds nothing wrong exactly with sound battles. -/
theorem corruption?_eq_none_iff {b : Battle} :
  b.corruption? = none ↔ b.Sound
  := by
  have huids : (b.placements.map fun p => p.unit.uid) = b.units.map BoardUnit.uid := by
    rw [← map_unit_placements, List.map_map]
    rfl
  have hunits : ∀ P : BoardUnit → Prop, (∀ p ∈ b.placements, P p.unit) ↔ ∀ u ∈ b.units, P u := by
    intro P
    rw [← map_unit_placements, List.forall_mem_map]
  have harranged : (∀ p ∈ b.placements, p.unit.cell = p.cell ∧ p.unit.owner = p.player)
      ↔ b.side0.board.Arranged 0 ∧ b.side1.board.Arranged 1 := by
    rw [arranged_iff_placementsOf, arranged_iff_placementsOf, placements, List.forall_mem_append]
  rw [corruption?_eq]
  constructor
  · intro h
    split at h
    · cases h
    · next hactive =>
      obtain ⟨hplaced, hdistinct, -⟩ := firstFault?_eq_none_iff.mp h
      obtain ⟨h0, h1⟩ := harranged.mp fun p hp => ⟨(hplaced p hp).cell, (hplaced p hp).owner⟩
      constructor
      · constructor
        · simpa using hactive
        · exact h0
        · exact h1
        · rw [← huids]
          exact hdistinct
        · apply (hunits fun u => u.Fit b.uids).mp
          intro p hp
          exact ⟨(hplaced p hp).issued, fun _ => (hplaced p hp).bounded⟩
      · apply (hunits fun u => u.isAlive).mp
        intro p hp
        exact (hplaced p hp).alive
  · intro h
    rw [if_neg (by simpa using h.active)]
    apply firstFault?_eq_none_iff.mpr
    refine ⟨?_, ?_, by simp⟩
    · intro p hp
      obtain ⟨hcell, howner⟩ := harranged.mpr ⟨h.arranged0, h.arranged1⟩ p hp
      have halive := (hunits fun u => u.isAlive).mpr h.alive p hp
      have hfit := (hunits fun u => u.Fit b.uids).mpr h.fit p hp
      exact ⟨hcell, howner, hfit.issued, halive, hfit.bounded halive⟩
    · rw [huids]
      exact h.distinct

/-- Two units face to face, the second of which has little vitality. -/
def duel : Battle :=
  { start 1 with
    side0.deck := ["scout"]
    side0.board := ⟨[some {
      uid := ⟨1⟩, cardId := "mourner", owner := 0, cell := ⟨.front, 0⟩, vitality := 3,
      vitalityMax := 3, impact := 2, defence := 0, velocity := 1 },
      none, none, none, none, none], rfl⟩
    side1.hand := ["mourner"]
    side1.board := ⟨[some {
      uid := ⟨2⟩, cardId := "scout", owner := 1, cell := ⟨.front, 0⟩, vitality := 1,
      vitalityMax := 1, impact := 1, defence := 0, velocity := 2 },
      none, none, none, none, none], rfl⟩
    uids := ⟨3⟩ }

example : duel.corruption? = none := by decide

end Battle

end CardBattle
