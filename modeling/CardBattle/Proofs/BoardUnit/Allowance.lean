import CardBattle.BoardUnit.Basic
import CardBattle.Proofs.SortedMap.Lookup

/-!
# The uses that a card deals out

A unit starts with a counter of uses for a slot if an active ability in the slot has a cap.
Nothing keeps a card from having several active abilities in one slot.  The one that an
activation uses is the first of them; the counter is the cap of the last one that has a cap.
So the two belong together exactly if no later ability in the slot has a cap, or the last of
these caps is that of the first ability, and always where the slot has only one ability.
-/

namespace CardBattle

/-- The active abilities in a slot, in order. -/
def Card.activesIn (card : Card) (slot : UInt8) : List Ability :=
  card.abilities.filter (fun a => a.activeSlot? = some slot)

/-- The ability that an activation uses is the first one in the slot. -/
theorem Card.activeAbility?_eq_head? (card : Card) (slot : UInt8) :
  card.activeAbility? slot = (card.activesIn slot).head?
  := (List.head?_filter ..).symm

/-- The capped abilities in a slot, among all the capped ones. -/
theorem Card.caps_filter (card : Card) (slot : UInt8) :
  ((card.activeAbilities.filterMap fun (s, a) => a.uses.map fun n => (s, n)).filter
      (fun e => e.1 = slot)).map (·.2)
    = (card.activesIn slot).filterMap (·.uses)
  := by
  rw [activeAbilities, activesIn, List.filterMap_filterMap, List.filter_filterMap,
    List.map_filterMap, List.filterMap_filter]
  congr 1
  funext a
  cases hslot : a.activeSlot? with
  | none => simp
  | some s =>
    by_cases hs : s = slot
    · cases huses : a.uses with
      | none => simp [hs, huses]
      | some n => simp [hs, huses]
    · simp [hs]

namespace BoardUnit

/-- What a unit can still use in a slot when it is dealt out: the last cap of an ability in
the slot.  Without an ability there is no counter; and of several, the counter is that of the
first, which activations use, exactly if the last cap behind it, should there be one, is its
own. -/
theorem usesLeft_ofCard (uid : Uid) (owner : UInt8) (cell : Cell) (card : Card) (slot : UInt8) :
  (ofCard uid owner cell card).usesLeft.find? slot
      = ((card.activesIn slot).filterMap (·.uses)).getLast?
  ∧ (card.activeAbility? slot = none →
      (ofCard uid owner cell card).usesLeft.find? slot = none)
  ∧ ∀ first later, card.activesIn slot = first :: later →
      card.activeAbility? slot = some first
      ∧ ((ofCard uid owner cell card).usesLeft.find? slot = first.uses
          ↔ ∀ n, (later.filterMap (·.uses)).getLast? = some n → first.uses = some n)
  := by
  have hlast : (ofCard uid owner cell card).usesLeft.find? slot
      = ((card.activesIn slot).filterMap (·.uses)).getLast? := by
    rw [ofCard, SortedMap.find?_ofList, card.caps_filter]
  refine ⟨hlast, ?_, ?_⟩
  · intro hnone
    rw [card.activeAbility?_eq_head?, List.head?_eq_none_iff] at hnone
    rw [hlast, hnone]
    rfl
  · intro first later hslot
    have hcounter : (ofCard uid owner cell card).usesLeft.find? slot
        = ((later.filterMap (·.uses)).getLast?).or first.uses := by
      rw [hlast, hslot]
      cases huses : first.uses with
      | none => rw [List.filterMap_cons_none huses, Option.or_none]
      | some n => rw [List.filterMap_cons_some huses, List.getLast?_cons, Option.or_some]
    constructor
    · rw [card.activeAbility?_eq_head?, hslot]
      rfl
    · rw [hcounter]
      cases (later.filterMap (·.uses)).getLast? with
      | none => simp
      | some n => simp [eq_comm]

/-- A card with one capped ability in slot one, an uncapped one in slot two, and a passive
ability with a cap in slot two. -/
def medicCard : Card :=
  { id := "medic", name := "Medic"
    abilities := [
      { kind := .active, name := "Mend", slot := some 1, uses := some 2 },
      { kind := .active, name := "Watch", slot := some 2 },
      { kind := .passive, name := "Calm", slot := some 2, uses := some 5 }] }

theorem usesLeft_ofCard_medic :
  let u := ofCard ⟨1⟩ 0 ⟨.front, 0⟩ medicCard
  u.usesLeft.find? 1 = some 2 ∧ u.usesLeft.find? 2 = none ∧ u.usesLeft.find? 3 = none
  := by
  obtain ⟨-, -, hone⟩ := usesLeft_ofCard ⟨1⟩ 0 ⟨.front, 0⟩ medicCard 1
  obtain ⟨-, -, htwo⟩ := usesLeft_ofCard ⟨1⟩ 0 ⟨.front, 0⟩ medicCard 2
  obtain ⟨-, hthree, -⟩ := usesLeft_ofCard ⟨1⟩ 0 ⟨.front, 0⟩ medicCard 3
  refine ⟨(hone _ _ rfl).2.mpr ?_, (htwo _ _ rfl).2.mpr ?_, hthree rfl⟩
  · intro n hn
    cases hn
  · intro n hn
    cases hn

/-- Two abilities in one slot: a unit of the card can use the first one three times, which is
the cap of the second. -/
theorem usesLeft_ofCard_twin :
  let card : Card :=
    { id := "twin", name := "Twin"
      abilities := [
        { kind := .active, name := "Once", slot := some 1, uses := some 1 },
        { kind := .active, name := "Thrice", slot := some 1, uses := some 3 }] }
  (card.activeAbility? 1).bind (·.uses) = some 1
  ∧ (ofCard ⟨1⟩ 0 ⟨.front, 0⟩ card).usesLeft.find? 1 = some 3
  := by
  decide

end BoardUnit

end CardBattle
