import CardBattle.Proofs.Cascade.Soundness

/-!
# Cascades keep the cards of both players

The cards of a player are those of the deck, the hand and the discard pile, and one for
every unit on the board of the player.  No move takes a card from a player or gives one:
cards are shifted, a unit that departs leaves its card on the discard pile of its owner, and
whatever else befalls a unit does not change its card.
-/

namespace CardBattle

open Relation (ReflTransGen)
open Change

namespace Battle

/-- The ids of all cards of a player. -/
def cardsOf (b : Battle) (player : UInt8) : List String :=
  ((b.side? player).map Side.cards).getD []

/-- Both players have the same cards in both battles, in whatever order. -/
def Conserves (b b' : Battle) : Prop :=
  ∀ player, (b'.cardsOf player).Perm (b.cardsOf player)

variable {b b' b'' : Battle} {player : UInt8}

theorem Conserves.refl (b : Battle) :
  b.Conserves b
  := fun _ => .refl _

theorem Conserves.trans (h : b.Conserves b') (h' : b'.Conserves b'') :
  b.Conserves b''
  := fun player => (h' player).trans (h player)

/-- The cards are the same where the sides hold the same cards. -/
theorem conserves_of_sides (h0 : b'.side0.cards.Perm b.side0.cards)
    (h1 : b'.side1.cards.Perm b.side1.cards) :
  b.Conserves b'
  := by
  intro player
  unfold cardsOf side?
  split
  · apply h0
  · split
    · apply h1
    · apply List.Perm.refl

/-- The cards are the same when a side is set that holds the same cards. -/
theorem conserves_setSide {s t : Side} (hs : b.side? player = some s)
    (h : t.cards.Perm s.cards) :
  b.Conserves (b.setSide player t)
  := by
  obtain ⟨rfl, rfl⟩ | ⟨rfl, rfl⟩ := side?_cases hs
  · apply conserves_of_sides
    · apply h
    · apply List.Perm.refl
  · apply conserves_of_sides
    · apply List.Perm.refl
    · apply h

/-- The cards are the same when a board is set whose units are of the same cards. -/
theorem conserves_setBoard {s : Side} {board : Board} (hs : b.side? player = some s)
    (h : (board.units.map BoardUnit.cardId).Perm (s.board.units.map BoardUnit.cardId)) :
  b.Conserves (b.setBoard player board)
  := by
  rw [← setSide_board hs]
  apply conserves_setSide hs
  apply List.Perm.append_left
  apply h

theorem Logs.conserves (h : b.Logs b') :
  b.Conserves b'
  := by
  rw [h.eq]
  apply conserves_of_sides
  · apply List.Perm.refl
  · apply List.Perm.refl

/-- The cards are the same when units change their cells. -/
theorem Rearranges.conserves (h : b.Rearranges b') :
  b.Conserves b'
  := by
  obtain ⟨player, side, board, hside, hboard, rfl⟩ := h.board
  apply conserves_setBoard hside
  have hcards := hboard.map BoardUnit.cardId
  rw [List.map_map, List.map_map] at hcards
  apply hcards

/-- The cards are the same when all units are changed and keep their cards. -/
theorem conserves_changeAll {f : BoardUnit → Except Fault BoardUnit}
    (hf : ∀ u v, f u = .ok v → v.cardId = u.cardId) (h : b.changeAll f = .ok b') :
  b.Conserves b'
  := by
  obtain ⟨board0, h0, h⟩ := bind_eq_ok.mp h
  obtain ⟨board1, h1, h⟩ := bind_eq_ok.mp h
  obtain rfl := pure_eq_ok.mp h
  apply conserves_of_sides
  · apply List.Perm.append_left
    rw [Board.map_eq_of_forall hf (Board.changeAll_units h0)]
  · apply List.Perm.append_left
    rw [Board.map_eq_of_forall hf (Board.changeAll_units h1)]

/-! ### Moves -/

/-- No touch takes a card from a player or gives one. -/
theorem Coherent.touch_conserves {A : BoardUnit → BoardUnit → Prop} (hb : b.Coherent)
    (hA : ∀ u v, A u v → u.Endures v) (h : Touch A b b') :
  b.Conserves b'
  := by
  cases h with
  | note h => apply h.conserves
  | @alter u v hu h =>
    have hendures := hA _ _ h
    obtain ⟨side, i, board, hside, hturns, hreplace⟩ := hb.replace_turns hu hendures.uid
    rw [hreplace]
    apply conserves_setBoard hside
    obtain ⟨l, r, hold, hnew⟩ := hturns.units
    rw [hold, hnew]
    simp [hendures.cardId]
  | shift hs h => apply conserves_setSide hs h.cards
  | swap h =>
    obtain rfl | ⟨m, hm, -, hlogs⟩ := stepSwap_leads hb h
    · apply Conserves.refl
    · apply hm.conserves.trans hlogs.conserves

/-- A unit that departs leaves its card to its owner. -/
theorem Departs.conserves {gone : BoardUnit} (h : Departs gone b b') :
  b.Conserves b'
  := by
  obtain ⟨side, i, board, line, hside, hturns, rfl⟩ := h.leaves
  apply Conserves.trans _ (record_logs _ line).conserves
  apply conserves_setSide hside
  have hunits := hturns.perm_taken.map BoardUnit.cardId
  unfold Side.cards
  simp only [List.append_assoc, List.singleton_append]
  apply List.Perm.append_left
  apply List.Perm.append_left
  apply List.Perm.append_left
  apply hunits.symm

/-- No move takes a card from a player or gives one. -/
theorem Coherent.move_conserves (hb : b.Coherent) (h : Move b b') :
  b.Conserves b'
  := by
  cases h with
  | touch h => apply hb.touch_conserves (fun _ _ halters => halters.endures) h
  | depart h => apply (hb.departs h).2.conserves

/-- Moves one after another keep the cards of both players. -/
theorem Coherent.moves_conserve (hb : b.Coherent) (h : Moves b b') :
  b.Conserves b'
  := by
  induction h with
  | refl => apply Conserves.refl
  | tail hmoves hmove ih => apply ih.trans ((hb.moves hmoves).move_conserves hmove)

end Battle

/-- A refresh keeps the cards of both players. -/
theorem Ruleset.refresh_conserves {rules : Ruleset} {b b' : Battle} (hb : b.Coherent)
    {player : UInt8} {first second : Trigger}
    (h : (rules.refresh player first second).Leads b b') :
  b.Conserves b'
  := by
  obtain ⟨lacks, m₁, m₂, m₃, ⟨hexpire, hm₁⟩, ⟨-, hmoves, -⟩, ⟨hkeep, hm₃⟩, hsweep⟩ :=
    refresh_coherent hb h
  have hexpired : b.Conserves m₁ := by
    apply Battle.conserves_changeAll _ hexpire
    intro u v hv
    apply (BoardUnit.expireBuffs_endures hv).cardId
  have hkept : m₂.Conserves m₃ := by
    apply Battle.conserves_changeAll _ hkeep
    intro u v hv
    obtain rfl := Except.ok.inj hv
    apply (BoardUnit.keepLack_endures lacks u).cardId
  apply hexpired.trans
  apply (hm₁.moves_conserve hmoves).trans
  apply hkept.trans
  apply hm₃.moves_conserve (rules.sweep_moves hsweep)

end CardBattle
