import CardBattle.Proofs.Battle.Integrity
import Mathlib.Data.List.Nodup

/-!
# The verdict on a battle

What the check of integrity decides can be said without the scan (`Battle.Orderly`): of every
unit on a board it is said where it has to be, that its uid is its own and was issued, and what
its vitality may be.  The scan comes across the units in the order of their places
(`Placement.Precedes`), so that what it reports is wrong with the first unit that offends
(`integrity_decided`).
-/

namespace CardBattle

namespace Battle

/-- The unit stands in the cell on the board of the player. -/
def Holds (b : Battle) (p : Placement) : Prop :=
  ∃ side, b.side? p.player = some side ∧ side.board.unitAt? p.cell = some p.unit

/-- One of the two players is active, and the units on the boards are all where they say they
are, under uids that are different and were issued, and alive with no more than their maximum of
vitality. -/
structure Orderly (b : Battle) : Prop where
  active : b.activePlayer = 0 ∨ b.activePlayer = 1
  cell : ∀ p, b.Holds p → p.unit.cell = p.cell
  owner : ∀ p, b.Holds p → p.unit.owner = p.player
  distinct : ∀ p q, b.Holds p → b.Holds q → p.unit.uid = q.unit.uid → p = q
  issued : ∀ p, b.Holds p → p.unit.uid.number < b.uids.next
  vitality : ∀ p, b.Holds p → 0 < p.unit.vitality ∧ p.unit.vitality ≤ p.unit.vitalityMax

end Battle

/-- One cell comes before another in scan order: front lane first, columns from left to right. -/
def Cell.Precedes (c d : Cell) : Prop :=
  c.lane.rank < d.lane.rank ∨ c.lane = d.lane ∧ c.column < d.column

namespace Placement

/-- One placement comes before another in scan order: those of player 0 first. -/
def Precedes (p q : Placement) : Prop :=
  p.player < q.player ∨ p.player = q.player ∧ p.cell.Precedes q.cell

/-- What is wrong with a placement on one of the boards of a battle.  Of two units of one uid
the later one offends. -/
inductive Offends (b : Battle) (p : Placement) : Corruption → Prop
  | cell (h : p.unit.cell ≠ p.cell) : Offends b p (.cellMismatch p.unit.uid)
  | owner (h : p.unit.owner ≠ p.player) : Offends b p (.wrongBoard p.unit.uid)
  | repeated {q : Placement} (hq : b.Holds q) (hprecedes : q.Precedes p)
      (h : q.unit.uid = p.unit.uid) : Offends b p (.duplicateUid p.unit.uid)
  | unknown (h : b.uids.next ≤ p.unit.uid.number) : Offends b p (.unknownUid p.unit.uid)
  | vitality (h : p.unit.vitality ≤ 0 ∨ p.unit.vitalityMax < p.unit.vitality) :
      Offends b p (.vitalityOutOfRange p.unit.uid p.unit.vitality p.unit.vitalityMax)

variable {p q : Placement}

theorem precedes_iff :
  p.Precedes q ↔ p.player.toNat < q.player.toNat ∨ p.player.toNat = q.player.toNat
    ∧ (p.cell.lane.rank < q.cell.lane.rank ∨ p.cell.lane.rank = q.cell.lane.rank
      ∧ p.cell.column.toNat < q.cell.column.toNat)
  := by
  have hlane : p.cell.lane = q.cell.lane ↔ p.cell.lane.rank = q.cell.lane.rank := by
    cases p.cell.lane <;> cases q.cell.lane <;> decide
  rw [Precedes, Cell.Precedes, hlane, UInt8.lt_iff_toNat_lt, UInt64.lt_iff_toNat_lt,
    UInt8.toNat_inj]

theorem precedes_asymm (h : p.Precedes q) :
  ¬q.Precedes p
  := by
  rw [precedes_iff] at *
  omega

end Placement

namespace Battle

/-! ### The scan -/

variable {b : Battle} {p q : Placement} {c : Corruption}

/-- The placements that are scanned are those of the units on the boards. -/
theorem mem_placements :
  p ∈ b.placements ↔ b.Holds p
  := by
  have hunit : ∀ board : Board, (∃ i, board.cells[i]? = some (some p.unit) ∧ p.cell.index? = some i)
      ↔ board.unitAt? p.cell = some p.unit := by
    intro board
    simp only [Board.unitAt?, Board.content?, Option.join_eq_some_iff, Option.bind_eq_some_iff]
    exact exists_congr fun _ => And.comm
  rw [placements, List.mem_append, mem_placementsOf, mem_placementsOf, hunit, hunit]
  constructor
  · rintro (⟨hplayer, hu⟩ | ⟨hplayer, hu⟩)
    · exact ⟨b.side0, by rw [hplayer]; rfl, hu⟩
    · exact ⟨b.side1, by rw [hplayer]; rfl, hu⟩
  · rintro ⟨side, hside, hu⟩
    obtain ⟨hplayer, rfl⟩ | ⟨hplayer, rfl⟩ := side?_cases hside
    · exact .inl ⟨hplayer, hu⟩
    · exact .inr ⟨hplayer, hu⟩

theorem pairwise_placementsOf (player : UInt8) (board : Board) :
  (placementsOf player board).Pairwise Placement.Precedes
  := by
  have hlength : Cell.all.length = board.cells.length := board.length_eq.symm
  have hcells : ((Cell.all.zip board.cells).map Prod.fst).Pairwise Cell.Precedes := by
    rw [List.map_fst_zip (Nat.le_of_eq hlength)]
    unfold Cell.Precedes
    decide
  apply List.pairwise_filterMap.mpr
  apply (List.pairwise_map.mp hcells).imp
  rintro ⟨c, content⟩ ⟨d, content'⟩ hprecedes p hp q hq
  obtain ⟨u, -, rfl⟩ := Option.map_eq_some_iff.mp hp
  obtain ⟨v, -, rfl⟩ := Option.map_eq_some_iff.mp hq
  exact .inr ⟨rfl, hprecedes⟩

/-- The placements on the boards are scanned in order. -/
theorem pairwise_placements (b : Battle) :
  b.placements.Pairwise Placement.Precedes
  := by
  apply List.pairwise_append.mpr ⟨pairwise_placementsOf _ _, pairwise_placementsOf _ _, _⟩
  intro p hp q hq
  left
  rw [(mem_placementsOf.mp hp).1, (mem_placementsOf.mp hq).1]
  decide

theorem nodup_placements (b : Battle) :
  b.placements.Nodup
  := by
  apply (pairwise_placements b).imp
  rintro p q hprecedes rfl
  exact Placement.precedes_asymm hprecedes hprecedes

/-- A scan that finds a fault has found none in the placements before. -/
theorem firstFault?_eq_some {counter : UidCounter} {seen : List Uid} {ps : List Placement}
    (h : firstFault? counter seen ps = some c) :
  ∃ before p after, ps = before ++ p :: after ∧ firstFault? counter seen before = none
    ∧ placementFault? counter ((before.map fun q => q.unit.uid) ++ seen) p = some c
  := by
  induction ps generalizing seen with
  | nil => cases h
  | cons p rest ih =>
    rw [firstFault?] at h
    cases hp : placementFault? counter seen p with
    | some c' =>
      rw [hp] at h
      exact ⟨[], p, rest, rfl, rfl, hp.trans h⟩
    | none =>
      rw [hp] at h
      obtain ⟨before, q, after, rfl, hbefore, hq⟩ := ih h
      refine ⟨p :: before, q, after, rfl, ?_, ?_⟩
      · rw [firstFault?, hp]
        exact hbefore
      · rw [← hq]
        apply placementFault?_congr
        intro uid
        rw [List.map_cons, List.cons_append, List.mem_cons, List.mem_append, List.mem_append,
          List.mem_cons]
        exact or_left_comm

/-- What is found to be wrong with a placement is so. -/
theorem offends_of_fault {seen : List Uid} (h : placementFault? b.uids seen p = some c)
    (hseen : ∀ uid ∈ seen, ∃ q, b.Holds q ∧ q.Precedes p ∧ q.unit.uid = uid) :
  p.Offends b c
  := by
  dsimp only [placementFault?] at h
  split at h
  · next hcell =>
    obtain rfl := Option.some.inj h
    exact .cell hcell
  split at h
  · next howner =>
    obtain rfl := Option.some.inj h
    exact .owner howner
  split at h
  · next hmem =>
    obtain rfl := Option.some.inj h
    obtain ⟨q, hq, hprecedes, huid⟩ := hseen _ hmem
    exact .repeated hq hprecedes huid
  split at h
  · next hissued =>
    obtain rfl := Option.some.inj h
    exact .unknown (by simpa [UidCounter.hasIssued] using hissued)
  split at h
  · next hvitality =>
    obtain rfl := Option.some.inj h
    exact .vitality hvitality
  · cases h

/-- Placements in order by themselves, of different uids, do not offend if they come before all
others. -/
theorem not_offends_of_placed {before after : List Placement}
    (hscan : b.placements = before ++ after) (hplaced : ∀ q ∈ before, Placed b.uids q)
    (hdistinct : (before.map fun q => q.unit.uid).Nodup) (hp : p ∈ before) :
  ¬p.Offends b c
  := by
  have hordered := pairwise_placements b
  rw [hscan] at hordered
  obtain ⟨hcell, howner, hissued, halive, hbounded⟩ := hplaced p hp
  rintro (h | h | ⟨hq, hprecedes, huid⟩ | h | h)
  · exact h hcell
  · exact h howner
  · next q =>
    have hq := mem_placements.mpr hq
    rw [hscan] at hq
    rcases List.mem_append.mp hq with hq | hq
    · obtain rfl := List.inj_on_of_nodup_map hdistinct hq hp huid
      exact Placement.precedes_asymm hprecedes hprecedes
    · apply Placement.precedes_asymm hprecedes
      exact (List.pairwise_append.mp hordered).2.2 p hp q hq
  · exact absurd h (by simpa [UidCounter.hasIssued] using hissued)
  · simp only [BoardUnit.isAlive, decide_eq_true_eq] at halive
    simp only [Int32.le_iff_toInt_le, Int32.lt_iff_toInt_lt] at *
    omega

/-- A placement is in order by itself when what is said of it in an orderly battle holds. -/
theorem placed_iff {counter : UidCounter} :
  Placed counter p ↔ p.unit.cell = p.cell ∧ p.unit.owner = p.player
    ∧ p.unit.uid.number < counter.next
    ∧ 0 < p.unit.vitality ∧ p.unit.vitality ≤ p.unit.vitalityMax
  := by
  constructor
  · rintro ⟨hcell, howner, hissued, halive, hbounded⟩
    exact ⟨hcell, howner, of_decide_eq_true hissued, of_decide_eq_true halive, hbounded⟩
  · rintro ⟨hcell, howner, hissued, halive, hbounded⟩
    exact ⟨hcell, howner, decide_eq_true hissued, decide_eq_true halive, hbounded⟩

/-- A battle is orderly when one of the players is active and its placements are in order by
themselves and of different uids. -/
theorem orderly_iff :
  b.Orderly ↔ ¬1 < b.activePlayer ∧ (∀ p ∈ b.placements, Placed b.uids p)
    ∧ (b.placements.map fun p => p.unit.uid).Nodup
  := by
  have hactive : ¬1 < b.activePlayer ↔ b.activePlayer = 0 ∨ b.activePlayer = 1 := by
    simp only [UInt8.lt_iff_toNat_lt, ← UInt8.toNat_inj]
    change ¬1 < b.activePlayer.toNat ↔ b.activePlayer.toNat = 0 ∨ b.activePlayer.toNat = 1
    omega
  rw [hactive, List.nodup_map_iff_inj_on b.nodup_placements]
  simp only [mem_placements, placed_iff]
  constructor
  · intro h
    refine ⟨h.active, fun p hp => ?_, fun p hp q hq => h.distinct p q hp hq⟩
    exact ⟨h.cell p hp, h.owner p hp, h.issued p hp, h.vitality p hp⟩
  · rintro ⟨hactive, hplaced, hdistinct⟩
    constructor
    case active => exact hactive
    case cell => exact fun p hp => (hplaced p hp).1
    case owner => exact fun p hp => (hplaced p hp).2.1
    case distinct => exact fun p q hp hq => hdistinct p hp q hq
    case issued => exact fun p hp => (hplaced p hp).2.2.1
    case vitality => exact fun p hp => (hplaced p hp).2.2.2

/-- What the scan reports is wrong with the first placement that offends. -/
theorem offends_of_firstFault? (h : firstFault? b.uids [] b.placements = some c) :
  ∃ p, b.Holds p ∧ p.Offends b c
    ∧ ∀ q, b.Holds q → q.Precedes p → ∀ c', ¬q.Offends b c'
  := by
  obtain ⟨before, p, after, hscan, hnone, hfault⟩ := firstFault?_eq_some h
  rw [List.append_nil] at hfault
  obtain ⟨hplaced, hdistinct, -⟩ := firstFault?_eq_none_iff.mp hnone
  have hordered := b.pairwise_placements
  rw [hscan] at hordered
  obtain ⟨-, hafter, hbefore⟩ := List.pairwise_append.mp hordered
  have hmem : ∀ q, q ∈ before ∨ q ∈ p :: after → b.Holds q := by
    intro q hq
    rw [← mem_placements, hscan]
    exact List.mem_append.mpr hq
  refine ⟨p, hmem p (.inr List.mem_cons_self), ?_, ?_⟩
  · apply offends_of_fault hfault
    intro uid huid
    obtain ⟨q, hq, rfl⟩ := List.mem_map.mp huid
    exact ⟨q, hmem q (.inl hq), hbefore q hq p List.mem_cons_self, rfl⟩
  · intro q hq hprecedes c'
    rw [← mem_placements, hscan] at hq
    -- None of the placements from `p` on comes before `p`.
    rcases List.mem_append.mp hq with hq | hq
    · exact not_offends_of_placed hscan hplaced hdistinct hq
    · rcases List.mem_cons.mp hq with rfl | hq
      · exact absurd hprecedes (Placement.precedes_asymm hprecedes)
      · exact absurd hprecedes
          (Placement.precedes_asymm ((List.pairwise_cons.mp hafter).1 q hq))

end Battle

/-- The check of integrity finds nothing wrong with the orderly battles and no others.  What it
reports is that neither player is active, or else something that is wrong with the first unit
that offends, and never that a player has too many units. -/
theorem integrity_decided (b : Battle) :
  (b.corruption? = none ↔ b.Orderly)
  ∧ (∀ c, b.corruption? = some c →
    (1 < b.activePlayer ∧ c = .invalidActivePlayer b.activePlayer)
    ∨ (b.activePlayer ≤ 1 ∧ ∃ p, b.Holds p ∧ p.Offends b c
      ∧ ∀ q, b.Holds q → q.Precedes p → ∀ c', ¬q.Offends b c'))
  ∧ ∀ player count, b.corruption? ≠ some (.tooManyUnits player count)
  := by
  have hreports : ∀ c, b.corruption? = some c →
      (1 < b.activePlayer ∧ c = .invalidActivePlayer b.activePlayer)
      ∨ (b.activePlayer ≤ 1 ∧ ∃ p, b.Holds p ∧ p.Offends b c
        ∧ ∀ q, b.Holds q → q.Precedes p → ∀ c', ¬q.Offends b c') := by
    intro c h
    rw [Battle.corruption?_eq] at h
    split at h
    · next hactive => exact .inl ⟨hactive, (Option.some.inj h).symm⟩
    · next hactive => exact .inr ⟨UInt8.not_lt.mp hactive, Battle.offends_of_firstFault? h⟩
  refine ⟨?_, hreports, ?_⟩
  · rw [Battle.orderly_iff, Battle.corruption?_eq]
    split
    · next hactive => simp [hactive]
    · next hactive => simp [hactive, Battle.firstFault?_eq_none_iff]
  · intro player count h
    obtain ⟨-, hactive⟩ | ⟨-, p, -, hoffends, -⟩ := hreports _ h
    · cases hactive
    · cases hoffends

end CardBattle
