import CardBattle.Cascade.Script
import CardBattle.Proofs.Battle.Coherence

/-!
# Departures

A unit without vitality leaves the board of its owner, and its card is discarded there
(`Battle.Departs`).  In a coherent battle some unit departs unless all are alive, and the
battle is coherent afterwards.
-/

namespace CardBattle

namespace Battle

/-- A unit without vitality has left its board, and its card has been discarded. -/
structure Departs (gone : BoardUnit) (b b' : Battle) : Prop where
  fallen : ¬gone.isAlive
  found : b.find? gone.uid = some gone
  leaves : ∃ side i board line, b.side? gone.owner = some side
    ∧ side.board.Turns i (some gone) none board
    ∧ b' = (b.setSide gone.owner
      { side with board, discard := side.discard ++ [gone.cardId] }).record line

variable {b b' : Battle} {owner : UInt8} {gone : BoardUnit}

/-- The unit that is removed is the first without vitality, and its owner is named. -/
theorem Coherent.removeFallen?_eq_some (hb : b.Coherent)
    (h : b.removeFallen? = some (owner, gone, b')) :
  b.units.find? (fun u => !u.isAlive) = some gone ∧ gone.owner = owner
    ∧ ∃ side i board line, b.side? gone.owner = some side
      ∧ side.board.Turns i (some gone) none board
      ∧ b' = (b.setSide gone.owner
        { side with board, discard := side.discard ++ [gone.cardId] }).record line
  := by
  simp only [removeFallen?, bind, Option.bind_eq_some_iff, pure, Option.some.injEq,
    Prod.mk.injEq, Prod.exists] at h
  obtain ⟨fallen, hfallen, side, hside, taken, board, htake, rfl, rfl, rfl⟩ := h
  have hfind := find?_of_mem hb.distinct (List.mem_of_find?_eq_some hfallen)
  obtain ⟨side', hside', hfind', -⟩ := hb.find?_side hfind
  obtain rfl : side = side' := Option.some.inj (hside.symm.trans hside')
  obtain ⟨htaken, rfl⟩ := Board.take?_eq_some.mp htake
  obtain rfl : taken = fallen := Option.some.inj (htaken.symm.trans hfind')
  obtain ⟨i, hturns⟩ := Board.setUnit_turns hfind' none
  exact ⟨hfallen, rfl, side, i, _, _, hside, hturns, rfl⟩

/-- In a coherent battle the unit that is removed departs. -/
theorem Coherent.departs (hb : b.Coherent) (h : b.removeFallen? = some (owner, gone, b')) :
  gone.owner = owner ∧ Departs gone b b'
  := by
  obtain ⟨hfirst, howner, hleaves⟩ := hb.removeFallen?_eq_some h
  use howner
  constructor
  · simpa using List.find?_some hfirst
  · exact find?_of_mem hb.distinct (List.mem_of_find?_eq_some hfirst)
  · exact hleaves

/-- In a coherent battle no unit is removed exactly when all are alive. -/
theorem Coherent.removeFallen?_eq_none_iff (hb : b.Coherent) :
  b.removeFallen? = none ↔ ∀ u ∈ b.units, u.isAlive
  := by
  constructor
  · intro h u hu
    by_contra hdead
    have hsome : (b.units.find? fun u => !u.isAlive).isSome := by
      apply List.find?_isSome.mpr
      use u, hu, by simpa using hdead
    obtain ⟨fallen, hfallen⟩ := Option.isSome_iff_exists.mp hsome
    have hfind := find?_of_mem hb.distinct (List.mem_of_find?_eq_some hfallen)
    obtain ⟨side, hside, hfind', -⟩ := hb.find?_side hfind
    have htake := Board.take?_eq_some.mpr ⟨hfind', rfl⟩
    simp [removeFallen?, hfallen, hside, htake] at h
  · intro h
    have hnone : (b.units.find? fun u => !u.isAlive) = none := by
      apply List.find?_eq_none.mpr
      intro u hu
      simp [h u hu]
    simp [removeFallen?, hnone]

/-- A battle stays coherent when a unit departs. -/
theorem Departs.coherent (hb : b.Coherent) (h : Departs gone b b') :
  b'.Coherent
  := by
  obtain ⟨side, i, board, line, hside, hturns, rfl⟩ := h.leaves
  have htaken : (b.setSide gone.owner
      { side with board, discard := side.discard ++ [gone.cardId] }).Coherent := by
    apply Coherent.setSide
    apply hb.take hside hturns
  exact htaken.congr htaken.active rfl rfl rfl

/-- The units are the same but for the one that departs. -/
theorem Departs.units (h : Departs gone b b') :
  ∃ l r, b.units = l ++ [gone] ++ r ∧ b'.units = l ++ r
  := by
  obtain ⟨side, i, board, line, hside, hturns, rfl⟩ := h.leaves
  obtain ⟨l, r, hold, hnew⟩ := units_turns hside hturns
  use l, r, hold
  change (b.setSide gone.owner _).units = _
  rw [units_setSide, hnew]
  simp only [Option.toList_none, List.append_nil]

/-- The units that are left were there before. -/
theorem Departs.subset_units (h : Departs gone b b') :
  b'.units ⊆ b.units
  := by
  obtain ⟨l, r, hold, hnew⟩ := h.units
  intro u hu
  rw [hnew] at hu
  rw [hold]
  simp only [List.mem_append] at hu ⊢
  tauto

/-- No unit that is left has the uid of the one that departs. -/
theorem Departs.fresh (hb : b.Coherent) (h : Departs gone b b') :
  ∀ u ∈ b'.units, u.uid ≠ gone.uid
  := by
  obtain ⟨l, r, hold, hnew⟩ := h.units
  have hdistinct := hb.distinct
  rw [hold] at hdistinct
  rw [hnew]
  apply uid_ne_of_distinct hdistinct

/-- There is one unit less. -/
theorem Departs.length_units (h : Departs gone b b') :
  b'.units.length + 1 = b.units.length
  := by
  obtain ⟨l, r, hold, hnew⟩ := h.units
  rw [hold, hnew]
  simp only [List.length_append, List.length_singleton]
  omega

end Battle

end CardBattle
