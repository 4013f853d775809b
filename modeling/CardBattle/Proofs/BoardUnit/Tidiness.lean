import CardBattle.Action.Resolution
import CardBattle.Proofs.BoardUnit.Base
import CardBattle.Proofs.Cascade.Incident
import CardBattle.Proofs.SortedMap.Lookup

/-!
# Tidy units

A unit is tidy when its statuses have different names, regardless of case, and so have its
immunities; when no change for good is kept among its buffs; and when there is a cooldown for
every active ability of its card, and for nothing else, and counters of uses for some of them
only.  The unit of a card is tidy, and whatever happens to a unit leaves it so.
-/

namespace CardBattle

/-- The slots of the active abilities. -/
def Card.activeSlots (card : Card) : List UInt8 :=
  card.activeAbilities.map (·.1)

namespace BoardUnit

/-- The cooldowns are those of the active abilities of the card, and only active abilities have
uses left. -/
def CountsFor (card : Card) (u : BoardUnit) : Prop :=
  (∀ slot, slot ∈ u.cooldowns.keys ↔ slot ∈ card.activeSlots)
    ∧ ∀ slot ∈ u.usesLeft.keys, slot ∈ card.activeSlots

/-- Statuses and immunities do not stack, every buff is to end, and the counters are those of the
active abilities of the card. -/
structure Tidy (catalog : Catalog) (u : BoardUnit) : Prop where
  statuses : u.statuses.Pairwise fun s t => ¬Text.sameLetters s.name t.name
  immunities : u.immunities.Pairwise fun i j => ¬Text.sameLetters i j
  buffs : ∀ buff ∈ u.buffs, buff.expiry ≠ .permanent
  counters : ∃ card, catalog.find? u.cardId = some card ∧ u.CountsFor card

variable {catalog : Catalog} {u v : BoardUnit}

/-- The unit that a card puts on a board is tidy. -/
theorem tidy_ofCard (uid : Uid) (owner : UInt8) (cell : Cell) {card : Card}
    (hcard : catalog.find? card.id = some card) :
  (ofCard uid owner cell card).Tidy catalog
  := by
  constructor
  case statuses => apply List.Pairwise.nil
  case immunities => apply List.Pairwise.nil
  case buffs =>
    intro buff hbuff
    cases hbuff
  case counters =>
    refine ⟨card, hcard, ?_, ?_⟩
    · intro slot
      rw [ofCard, SortedMap.mem_keys_ofList, Card.activeSlots, List.map_map]
      rfl
    · intro slot hslot
      rw [ofCard, SortedMap.mem_keys_ofList, List.map_filterMap] at hslot
      obtain ⟨⟨s, a⟩, hmem, huses⟩ := List.mem_filterMap.mp hslot
      obtain ⟨entry, hentry, rfl⟩ := Option.map_eq_some_iff.mp huses
      obtain ⟨n, -, rfl⟩ := Option.map_eq_some_iff.mp hentry
      exact List.mem_map_of_mem hmem

namespace Tidy

/-- A unit whose statistics and buffs have changed is tidy if its buffs are to end. -/
theorem restats (hu : u.Tidy catalog) (h : u.Restats v)
    (hbuffs : ∀ buff ∈ v.buffs, buff.expiry ≠ .permanent) :
  v.Tidy catalog
  := by
  rw [h]
  exact ⟨hu.statuses, hu.immunities, hbuffs, hu.counters⟩

/-- A buff is noted only if it is not for good. -/
theorem addBuff (hu : u.Tidy catalog) {stat : Stat} {delta : Int32} {duration : Duration}
    (h : u.addBuff stat delta duration = .ok v) :
  v.Tidy catalog
  := by
  apply hu.restats (addBuff_restats h)
  obtain ⟨w, hw, rfl⟩ := addBuff_ok h
  rw [modifyStat_buffs hw]
  dsimp only
  split
  · apply hu.buffs
  · next hduration =>
    intro buff hbuff
    rcases List.mem_append.mp hbuff with hbuff | hbuff
    · apply hu.buffs buff hbuff
    · obtain rfl := List.mem_singleton.mp hbuff
      exact hduration

theorem expireBuffs (hu : u.Tidy catalog) {expiry : Duration}
    (h : u.expireBuffs expiry = .ok v) :
  v.Tidy catalog
  := by
  apply hu.restats (expireBuffs_restats h)
  rw [expireBuffs_buffs h]
  intro buff hbuff
  apply hu.buffs buff (List.mem_of_mem_filter hbuff)

/-- A status is added only to a unit that is not in it. -/
theorem afflict (hu : u.Tidy catalog) {status : String} (detail : Option String)
    (h : u.hasStatus status = false) :
  Tidy catalog { u with statuses := u.statuses ++ [⟨status, detail⟩] }
  := by
  refine ⟨?_, hu.immunities, hu.buffs, hu.counters⟩
  apply List.pairwise_append.mpr ⟨hu.statuses, List.pairwise_singleton _ _, ?_⟩
  intro s hs t ht
  obtain rfl := List.mem_singleton.mp ht
  have hnone := List.any_eq_false.mp h s hs
  exact hnone

theorem addImmunity (hu : u.Tidy catalog) (name : String) :
  (u.addImmunity name).Tidy catalog
  := by
  rw [BoardUnit.addImmunity]
  split
  · apply hu
  · next hnone =>
    refine ⟨hu.statuses, ?_, hu.buffs, hu.counters⟩
    apply List.pairwise_append.mpr ⟨hu.immunities, List.pairwise_singleton _ _, ?_⟩
    intro i hi j hj
    obtain rfl := List.mem_singleton.mp hj
    intro hsame
    apply hnone
    apply List.any_eq_true.mpr ⟨i, hi, hsame⟩

/-- Whatever a step does to a unit leaves it tidy. -/
theorem undergoes (hu : u.Tidy catalog) (h : u.Undergoes v) :
  v.Tidy catalog
  := by
  cases h with
  | damage h =>
    apply hu.restats (takeDamage_restats h)
    rw [(takeDamage_ok h).1]
    apply hu.buffs
  | heal h =>
    apply hu.restats (heal_restats h)
    rw [(heal_ok h).1]
    apply hu.buffs
  | modify h => apply hu.addBuff h
  | afflict detail h => apply hu.afflict detail h
  | relieve h => exact ⟨hu.statuses.sublist h, hu.immunities, hu.buffs, hu.counters⟩
  | immunize names =>
    induction names generalizing u with
    | nil => apply hu
    | cons name rest ih => apply ih (hu.addImmunity name)
  | mark h hstatuses himmunities =>
    rw [h.eq]
    refine ⟨?_, ?_, hu.buffs, hu.counters⟩
    · rw [hstatuses]
      apply hu.statuses
    · rw [himmunities]
      apply hu.immunities

/-- The use of an ability of the card leaves the unit tidy. -/
theorem afterUse (hu : u.Tidy catalog) {card : Card} (hcard : catalog.find? u.cardId = some card)
    {slot : UInt8} (hslot : slot ∈ card.activeSlots) (ability : Ability) :
  (Ruleset.afterUse slot ability u).Tidy catalog
  := by
  obtain ⟨_, hfound, hcounts⟩ := hu.counters
  obtain rfl := Option.some.inj (hcard.symm.trans hfound)
  refine ⟨hu.statuses, hu.immunities, hu.buffs, card, hcard, ?_, ?_⟩
  · intro other
    rw [Ruleset.afterUse, SortedMap.mem_keys_insert, hcounts.1]
    constructor
    · rintro (rfl | hother)
      · exact hslot
      · exact hother
    · exact .inr
  · intro other hother
    rw [Ruleset.afterUse, SortedMap.mem_keys_modify] at hother
    apply hcounts.2 other hother

theorem endCycle (hu : u.Tidy catalog) (h : u.endCycle = .ok v) :
  v.Tidy catalog
  := by
  obtain ⟨w, hw, h⟩ := bind_eq_ok.mp h
  obtain rfl := pure_eq_ok.mp h
  have hrested : Tidy catalog
      { u with
        hasAttacked := false
        isNew := false
        cooldowns := u.cooldowns.mapValues coolDown } := by
    obtain ⟨card, hcard, hcounts⟩ := hu.counters
    refine ⟨hu.statuses, hu.immunities, hu.buffs, card, hcard, ?_, hcounts.2⟩
    rw [SortedMap.keys_mapValues]
    apply hcounts.1
  have hexpired := hrested.expireBuffs hw
  exact ⟨hexpired.statuses, hexpired.immunities, hexpired.buffs, hexpired.counters⟩

theorem keepLack (hu : u.Tidy catalog) (l : Lacks) :
  (u.keepLack l).Tidy catalog
  := by
  apply hu.restats (keepLack_restats l u)
  rw [keepLack_eq]
  apply hu.buffs

/-- Nothing that happens to a unit in a cascade makes it untidy. -/
theorem isHereditary (catalog : Catalog) :
  IsHereditary (Tidy catalog)
  := by
  constructor
  case undergoes => exact fun _ _ h hu => hu.undergoes h
  case elsewhere =>
    exact fun _ _ hu => ⟨hu.statuses, hu.immunities, hu.buffs, hu.counters⟩

end Tidy

end BoardUnit

end CardBattle
