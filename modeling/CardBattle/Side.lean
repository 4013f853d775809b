import CardBattle.Board.Codec
import CardBattle.Json.Maps

/-!
# Sides

The side of a player: deck, hand, discard pile and board, and the abilities used in the
current turn.  The top of the deck is its end, and the card that came to the hand last is
the first to be discarded.
-/

namespace CardBattle

/-- What belongs to a player. -/
structure Side where
  deck : List String := []
  hand : List String := []
  discard : List String := []
  board : Board := ∅
  used : SortedSet Usage := ∅
deriving DecidableEq

/-- The last element of a list, and the list without it. -/
def popLast? {α : Type} (l : List α) : Option (α × List α) :=
  l.getLast?.map fun a => (a, l.dropLast)

namespace Side

/-- The card on top of the deck, and the side with that card in hand. -/
def draw? (s : Side) : Option (String × Side) :=
  (popLast? s.deck).map fun (card, deck) =>
    (card, { s with deck, hand := s.hand ++ [card] })

/-- The last card of the hand, and the side with that card discarded. -/
def discardLast? (s : Side) : Option (String × Side) :=
  (popLast? s.hand).map fun (card, hand) =>
    (card, { s with hand, discard := s.discard ++ [card] })

/-- A way to move a card, repeated up to `n` times while there are cards: the cards moved
in order, and the side after that. -/
def repeatUpTo (move : Side → Option (String × Side)) : Nat → Side → List String × Side
  | 0, s => ([], s)
  | n + 1, s =>
      match move s with
      | none => ([], s)
      | some (card, s) =>
          let (cards, s) := repeatUpTo move n s
          (card :: cards, s)

/-- The side after up to `n` cards were drawn, and those cards. -/
def drawUpTo (n : Nat) (s : Side) : List String × Side :=
  repeatUpTo draw? n s

/-- The side after up to `n` cards of the hand were discarded, and those cards. -/
def discardUpTo (n : Nat) (s : Side) : List String × Side :=
  repeatUpTo discardLast? n s

/-- The side without the card at a place of the hand. -/
def takeFromHand (s : Side) (place : UInt64) : Except Fault Side :=
  if place.toNat < s.hand.length then .ok { s with hand := s.hand.eraseIdx place.toNat }
  else .error (.noSuchPlace s.hand.length place)

/-- Whether the ability of a unit in a slot was used in this turn. -/
def hasUsed (s : Side) (usage : Usage) : Bool :=
  s.used.contains usage

/-- The side with a use noted. -/
def markUsed (s : Side) (usage : Usage) : Side :=
  { s with used := s.used.insert usage () }

open Json (decode encode)

instance : Json.Codec Side where
  encode s := .object [
    ("deck", encode s.deck), ("hand", encode s.hand), ("discard", encode s.discard),
    ("board", encode s.board), ("perTurnUsage", encode s.used)]
  decode input := input.readObject fun fields => Side.mk
    <$> fields.defaulted "deck" []
    <*> fields.defaulted "hand" []
    <*> fields.defaulted "discard" []
    <*> fields.defaulted "board" ∅
    <*> fields.defaulted "perTurnUsage" ∅

end Side

end CardBattle
