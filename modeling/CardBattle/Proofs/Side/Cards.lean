import CardBattle.Side
import CardBattle.Proofs.Change.Composition

/-!
# The cards of a side

A side holds the cards of its deck, its hand and its discard pile and one card for every
unit on its board.  Drawing and discarding shift cards between the piles: the board stays as
it is, and the cards are the same up to their order (`Side.Shifts`).  Cards are taken only
from the top of the deck, and they are put only on top of the discard pile (`Side.Keeps`).
-/

namespace CardBattle

/-- A list that has a last element ends with it. -/
theorem popLast?_eq_some {α : Type} {l rest : List α} {a : α} (h : popLast? l = some (a, rest)) :
  l = rest ++ [a]
  := by
  simp only [popLast?, Option.map_eq_some_iff, Prod.mk.injEq] at h
  obtain ⟨_, hlast, rfl, rfl⟩ := h
  obtain ⟨init, rfl⟩ := List.getLast?_eq_some_iff.mp hlast
  rw [List.dropLast_concat]

namespace Side

/-- The ids of all cards of a side, those of the units on the board last. -/
def cards (s : Side) : List String :=
  s.deck ++ s.hand ++ s.discard ++ s.board.units.map BoardUnit.cardId

/-- The abilities used are the same; the deck has lost cards at its end only, and cards have
come only behind those of the discard pile. -/
structure Keeps (s t : Side) : Prop where
  used : t.used = s.used
  deck : t.deck <+: s.deck
  discard : s.discard <+: t.discard

/-- The side holds the same cards, some of which have left the deck or come to the discard
pile, and its board is the same. -/
structure Shifts (s t : Side) : Prop extends Keeps s t where
  board : t.board = s.board
  cards : t.cards.Perm s.cards

variable {s t r : Side}

theorem Keeps.refl (s : Side) :
  s.Keeps s
  := ⟨rfl, List.prefix_rfl, List.prefix_rfl⟩

theorem Keeps.trans (hst : s.Keeps t) (htr : t.Keeps r) :
  s.Keeps r
  := ⟨htr.used.trans hst.used, htr.deck.trans hst.deck, hst.discard.trans htr.discard⟩

theorem Shifts.refl (s : Side) :
  s.Shifts s
  := ⟨.refl s, rfl, .refl _⟩

theorem Shifts.trans (hst : s.Shifts t) (htr : t.Shifts r) :
  s.Shifts r
  := ⟨hst.toKeeps.trans htr.toKeeps, htr.board.trans hst.board, htr.cards.trans hst.cards⟩

/-- A card that is drawn goes from the deck to the hand. -/
theorem draw?_shifts {card : String} (h : s.draw? = some (card, t)) :
  s.Shifts t
  := by
  simp only [draw?, Option.map_eq_some_iff, Prod.mk.injEq, Prod.exists] at h
  obtain ⟨_, deck, hpop, rfl, rfl⟩ := h
  have hdeck := popLast?_eq_some hpop
  refine ⟨⟨rfl, hdeck ▸ List.prefix_append _ _, List.prefix_rfl⟩, rfl, ?_⟩
  simp only [cards, hdeck, List.append_assoc]
  apply List.Perm.append_left
  simp only [← List.append_assoc]
  apply List.Perm.append_right
  apply List.Perm.append_right
  apply List.perm_append_comm

/-- A card that is discarded goes from the hand to the discard pile. -/
theorem discardLast?_shifts {card : String} (h : s.discardLast? = some (card, t)) :
  s.Shifts t
  := by
  simp only [discardLast?, Option.map_eq_some_iff, Prod.mk.injEq, Prod.exists] at h
  obtain ⟨_, hand, hpop, rfl, rfl⟩ := h
  have hhand := popLast?_eq_some hpop
  refine ⟨⟨rfl, List.prefix_rfl, List.prefix_append _ _⟩, rfl, ?_⟩
  simp only [cards, hhand, List.append_assoc]
  apply List.Perm.append_left
  apply List.Perm.append_left
  simp only [← List.append_assoc]
  apply List.Perm.append_right
  apply List.perm_append_comm

/-- A way to shift a card shifts cards when it is repeated. -/
theorem repeatUpTo_shifts {move : Side → Option (String × Side)}
    (hmove : ∀ {s card t}, move s = some (card, t) → s.Shifts t) (n : Nat) (s : Side) :
  s.Shifts (repeatUpTo move n s).2
  := by
  induction n generalizing s with
  | zero => exact .refl s
  | succ n ih =>
    rw [repeatUpTo]
    cases hs : move s with
    | none => exact .refl s
    | some moved =>
      obtain ⟨card, t⟩ := moved
      exact (hmove hs).trans (ih t)

theorem drawUpTo_shifts (n : Nat) (s : Side) :
  s.Shifts (s.drawUpTo n).2
  := repeatUpTo_shifts draw?_shifts n s

theorem discardUpTo_shifts (n : Nat) (s : Side) :
  s.Shifts (s.discardUpTo n).2
  := repeatUpTo_shifts discardLast?_shifts n s

/-! ### Shifts do not see the board -/

/-- A way to move a card that does not see the board does not do so when it is repeated. -/
theorem repeatUpTo_board {move : Side → Option (String × Side)}
    (hmove : ∀ s board, move { s with board } =
      (move s).map fun moved => (moved.1, { moved.2 with board })) (n : Nat) (s : Side)
    (board : Board) :
  repeatUpTo move n { s with board }
    = ((repeatUpTo move n s).1, { (repeatUpTo move n s).2 with board })
  := by
  induction n generalizing s with
  | zero => rfl
  | succ n ih =>
    rw [repeatUpTo, repeatUpTo, hmove]
    cases move s with
    | none => rfl
    | some moved => simp only [Option.map_some, ih]

theorem drawUpTo_board (n : Nat) (s : Side) (board : Board) :
  drawUpTo n { s with board } = ((s.drawUpTo n).1, { (s.drawUpTo n).2 with board })
  := by
  apply repeatUpTo_board
  intro s board
  rw [draw?, draw?, Option.map_map]
  rfl

theorem discardUpTo_board (n : Nat) (s : Side) (board : Board) :
  discardUpTo n { s with board } = ((s.discardUpTo n).1, { (s.discardUpTo n).2 with board })
  := by
  apply repeatUpTo_board
  intro s board
  rw [discardLast?, discardLast?, Option.map_map]
  rfl

end Side

end CardBattle
