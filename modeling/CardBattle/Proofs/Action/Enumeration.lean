import CardBattle.Proofs.Action.Legal
import CardBattle.Proofs.Action.Lethal
import CardBattle.Proofs.BoardUnit.Allowance
import CardBattle.Proofs.BoardUnit.Tidiness
import Mathlib.Data.List.Nodup

/-!
# How often an action is listed

The legal actions are found in nested loops over places of a hand, free cells, units, targets
and abilities.  Places, cells, uids and targets are all different, so each action is listed
once (`legalActions_count`).  The exception are activations: an activation is listed once for
each active ability in the slot that needs a target if and only if the activation has one.  So
the list is without duplicates exactly if no activation in it comes from two abilities in one
slot, and always where no card has two active abilities in one slot.
-/

namespace CardBattle

/-! ### Loops -/

/-- In a loop over different things, what only one of them gives occurs as often as there. -/
theorem count_flatMap_of_mem {α β : Type} [DecidableEq β] {l : List α} {f : α → List β} {x : α}
    {y : β} (hnodup : l.Nodup) (hx : x ∈ l) (hother : ∀ z ∈ l, z ≠ x → y ∉ f z) :
  (l.flatMap f).count y = (f x).count y
  := by
  obtain ⟨before, after, rfl⟩ := List.append_of_mem hx
  obtain ⟨hfresh, -⟩ := List.nodup_cons.mp (List.perm_middle.nodup_iff.mp hnodup)
  have hnone : ∀ part : List α, (∀ z ∈ part, z ∈ before ++ after) →
      (part.flatMap f).count y = 0 := by
    intro part hpart
    apply List.count_eq_zero.mpr
    intro hy
    obtain ⟨z, hz, hy⟩ := List.mem_flatMap.mp hy
    have hmem := hpart z hz
    apply hother z _ _ hy
    · simp only [List.mem_append, List.mem_cons] at hmem ⊢
      tauto
    · rintro rfl
      exact hfresh hmem
  have hbefore := hnone before fun z hz => List.mem_append_left _ hz
  have hafter := hnone after fun z hz => List.mem_append_right _ hz
  rw [List.flatMap_append, List.flatMap_cons, List.count_append, List.count_append, hbefore,
    hafter, Nat.zero_add, Nat.add_zero]

/-- A slot occurs among those of the active abilities once for each ability in it. -/
theorem Card.count_activeSlots (card : Card) (slot : UInt8) :
  card.activeSlots.count slot = (card.activesIn slot).length
  := by
  rw [activeSlots, activeAbilities, activesIn]
  induction card.abilities with
  | nil => rfl
  | cons ability rest ih =>
    cases hslot : ability.activeSlot? with
    | none => simpa [hslot] using ih
    | some slot' =>
      by_cases hsame : slot' = slot
      · simpa [hslot, hsame] using ih
      · simpa [hslot, hsame] using ih

/-! ### Places, cells and targets -/

/-- First places are places of the hand. -/
theorem firstPlaces_bounds {seen hand : List String} {place i : Nat}
    (h : i ∈ firstPlaces seen place hand) :
  place ≤ i ∧ i < place + hand.length
  := by
  induction hand generalizing seen place with
  | nil => cases h
  | cons id rest ih =>
    rw [firstPlaces] at h
    rw [List.length_cons]
    split at h
    · have := ih h
      omega
    · rcases List.mem_cons.mp h with rfl | h
      · omega
      · have := ih h
        omega

/-- First places are different. -/
theorem nodup_firstPlaces (seen hand : List String) (place : Nat) :
  (firstPlaces seen place hand).Nodup
  := by
  induction hand generalizing seen place with
  | nil => apply List.nodup_nil
  | cons id rest ih =>
    rw [firstPlaces]
    split
    · apply ih
    · apply List.nodup_cons.mpr ⟨_, ih ..⟩
      intro hmem
      have := firstPlaces_bounds hmem
      omega

theorem Board.nodup_freeCells (board : Board) :
  board.freeCells.Nodup
  := List.Nodup.filter _ (by decide)

namespace Battle

variable {b : Battle}

/-- The units of a player are some of all units. -/
theorem units_sublist {player : UInt8} {side : Side} (h : b.side? player = some side) :
  side.board.units.Sublist b.units
  := by
  obtain ⟨-, rfl⟩ | ⟨-, rfl⟩ := side?_cases h
  · apply List.sublist_append_left
  · apply List.sublist_append_right

/-- No target of an attack is listed twice. -/
theorem Coherent.nodup_attackTargets (hb : b.Coherent) (attacker : Uid) :
  (b.attackTargets attacker).Nodup
  := by
  rw [attackTargets]
  split
  · apply List.nodup_nil
  · next u _ =>
    split
    · apply List.nodup_nil
    · next side hside =>
      have hsublist := (side.board.reachable_sublist u.reach).trans (units_sublist hside)
      apply hb.distinct.sublist (hsublist.map _)

/-- No target of an ability is listed twice. -/
theorem Coherent.nodup_abilityTargets (hb : b.Coherent) (rules : Ruleset) (uid : Uid)
    (slot : UInt8) :
  (rules.abilityTargets b uid slot).Nodup
  := by
  rw [Ruleset.abilityTargets]
  split
  · apply List.nodup_nil
  · split
    · apply List.nodup_nil
    · split
      · apply List.nodup_singleton
      · apply hb.distinct.sublist (List.filter_sublist.map _)

end Battle

namespace Ruleset

variable {rules : Ruleset} {b : Battle} {side : Side} {u : BoardUnit} {action : Action}

/-! ### Cards that are played -/

/-- The places of a hand are different as words too, if the hand has no more places than
there are words. -/
theorem nodup_playCandidates (hhand : side.hand.length ≤ UInt64.size) :
  (playCandidates b side).Nodup
  := by
  have hword : ∀ place ∈ firstPlaces [] 0 side.hand, (UInt64.ofNat place).toNat = place := by
    intro place hplace
    have hbounds := firstPlaces_bounds hplace
    apply UInt64.toNat_ofNat_of_lt
    omega
  apply List.nodup_flatMap.mpr
  constructor
  · intro place _
    apply side.board.nodup_freeCells.map
    intro cell cell' hcell
    injection hcell
  · apply (nodup_firstPlaces [] side.hand 0).imp_of_mem
    intro place place' hplace hplace' hne
    apply List.disjoint_left.mpr
    intro action hleft hright
    obtain ⟨cell, -, rfl⟩ := List.mem_map.mp hleft
    obtain ⟨cell', -, hsame⟩ := List.mem_map.mp hright
    injection hsame with _ hplaces _
    apply hne
    rw [← hword place hplace, ← hword place' hplace', hplaces]

/-- The candidates to play a card play a card. -/
theorem mem_playCandidates (h : action ∈ playCandidates b side) :
  ∃ place cell, action = .playUnit b.activePlayer place cell
  := by
  obtain ⟨place, -, h⟩ := List.mem_flatMap.mp h
  obtain ⟨cell, -, rfl⟩ := List.mem_map.mp h
  exact ⟨_, _, rfl⟩

/-! ### Abilities that are used -/

/-- How often the legal actions list an action: an activation once for each active ability of
the unit in the slot that needs a target if and only if the activation has one, any other
action once. -/
def listings (rules : Ruleset) (b : Battle) : Action → Nat
  | .activate _ uid slot target =>
      match (b.find? uid).bind rules.cardOf? with
      | none => 0
      | some card =>
          (card.activesIn slot).countP (fun ability => ability.needsTarget = target.isSome)
  | _ => 1

/-- The candidates to use an ability use it, and aim it at a target in its scope if at all. -/
theorem mem_activationCandidates {slot : UInt8} {ability : Ability}
    (h : action ∈ rules.activationCandidates b u slot ability) :
  ∃ target, action = .activate b.activePlayer u.uid slot target
    ∧ ∀ uid, target = some uid → uid ∈ rules.abilityTargets b u.uid slot
  := by
  rw [activationCandidates] at h
  split at h
  · obtain ⟨uid, huid, rfl⟩ := List.mem_map.mp h
    use some uid, rfl
    rintro _ ⟨⟩
    exact huid
  · obtain rfl := List.mem_singleton.mp h
    use none, rfl
    intro uid huid
    cases huid

theorem mem_abilityCandidates (h : action ∈ rules.abilityCandidates b u) :
  ∃ slot target, action = .activate b.activePlayer u.uid slot target
    ∧ ∀ uid, target = some uid → uid ∈ rules.abilityTargets b u.uid slot
  := by
  rw [abilityCandidates] at h
  split at h
  · cases h
  · obtain ⟨⟨slot, ability⟩, -, h⟩ := List.mem_flatMap.mp h
    exact ⟨slot, mem_activationCandidates h⟩

/-- Whether an ability is listed for an activation: if it is in the slot, and the activation
has a target as the ability demands. -/
theorem count_activationCandidates (hb : b.Coherent) {slot slot' : UInt8} {target : Option Uid}
    {ability : Ability}
    (htarget : ∀ uid, target = some uid → uid ∈ rules.abilityTargets b u.uid slot) :
  (rules.activationCandidates b u slot' ability).count
      (.activate b.activePlayer u.uid slot target)
    = if slot' = slot ∧ ability.needsTarget = target.isSome then 1 else 0
  := by
  split
  · next h =>
    obtain ⟨rfl, hneeds⟩ := h
    rw [activationCandidates, hneeds]
    cases target with
    | none => exact List.count_singleton_self
    | some uid =>
      apply List.count_eq_one_of_mem
      · apply (hb.nodup_abilityTargets rules u.uid slot').map
        intro uid uid' hsame
        injection hsame with _ _ _ huid
        injection huid
      · apply List.mem_map_of_mem (htarget uid rfl)
  · next h =>
    apply List.count_eq_zero.mpr
    intro hmem
    apply h
    rw [activationCandidates] at hmem
    split at hmem
    · next hneeds =>
      obtain ⟨uid, -, hsame⟩ := List.mem_map.mp hmem
      injection hsame with _ _ hslot huid
      subst hslot huid
      exact ⟨rfl, hneeds⟩
    · next hneeds =>
      injection List.mem_singleton.mp hmem with _ _ hslot huid
      subst hslot huid
      exact ⟨rfl, by simpa using hneeds⟩

/-- The candidates to use an ability list an activation once for each ability in the slot that
demands a target as the activation has one. -/
theorem count_abilityCandidates (hb : b.Coherent) {card : Card}
    (hcard : rules.cardOf? u = some card) {slot : UInt8} {target : Option Uid}
    (htarget : ∀ uid, target = some uid → uid ∈ rules.abilityTargets b u.uid slot) :
  (rules.abilityCandidates b u).count (.activate b.activePlayer u.uid slot target)
    = (card.activesIn slot).countP (fun ability => ability.needsTarget = target.isSome)
  := by
  rw [abilityCandidates, hcard]
  dsimp only
  rw [Card.activeAbilities, Card.activesIn]
  induction card.abilities with
  | nil => rfl
  | cons ability rest ih =>
    cases hslot : ability.activeSlot? with
    | none => simpa [hslot] using ih
    | some slot' =>
      rw [List.filterMap_cons_some (by rw [hslot, Option.map_some]), List.flatMap_cons,
        List.count_append, ih, count_activationCandidates hb htarget, List.filter_cons, hslot]
      by_cases hsame : slot' = slot
      · simp [hsame, List.countP_cons, Nat.add_comm]
      · simp [hsame]

/-! ### All candidates -/

/-- A unit's candidates list each action as often as the legal actions do. -/
theorem count_unitCandidates (hb : b.Coherent) (hu : b.find? u.uid = some u)
    (h : action ∈ rules.unitCandidates b side u) :
  (rules.unitCandidates b side u).count action = rules.listings b action
  := by
  have hunused : (∀ slot target, action ≠ .activate b.activePlayer u.uid slot target) →
      (rules.abilityCandidates b u).count action = 0 := by
    intro hother
    apply List.count_eq_zero.mpr
    intro huse
    obtain ⟨slot, target, hsame, -⟩ := mem_abilityCandidates huse
    exact hother slot target hsame
  rw [unitCandidates, List.count_append, List.count_append]
  rw [unitCandidates, List.mem_append, List.mem_append] at h
  obtain (hmove | hattack) | huse := h
  · have hmoves : ((side.board.freeCells.map fun cell =>
        Action.move b.activePlayer u.uid cell).count action) = 1 := by
      apply List.count_eq_one_of_mem _ hmove
      apply side.board.nodup_freeCells.map
      intro cell cell' hcell
      injection hcell
    obtain ⟨cell, -, rfl⟩ := List.mem_map.mp hmove
    rw [hmoves, List.count_eq_zero.mpr (by simp), hunused (by simp)]
    rfl
  · have hattacks : ((b.attackTargets u.uid).map fun target =>
        Action.attack b.activePlayer u.uid target).count action = 1 := by
      apply List.count_eq_one_of_mem _ hattack
      apply (hb.nodup_attackTargets u.uid).map
      intro target target' htarget
      injection htarget
    obtain ⟨target, -, rfl⟩ := List.mem_map.mp hattack
    rw [hattacks, List.count_eq_zero.mpr (by simp), hunused (by simp)]
    rfl
  · obtain ⟨slot, target, rfl, htarget⟩ := mem_abilityCandidates huse
    cases hcard : rules.cardOf? u with
    | none =>
      rw [abilityCandidates, hcard] at huse
      cases huse
    | some card =>
      rw [List.count_eq_zero.mpr (by simp), List.count_eq_zero.mpr (by simp),
        count_abilityCandidates hb hcard htarget, listings, hu, Option.bind_some, hcard,
        Nat.zero_add]

/-- With a unit, the candidates move it, attack with it or use an ability of it. -/
theorem mem_unitCandidates (h : action ∈ rules.unitCandidates b side u) :
  (∃ cell, action = .move b.activePlayer u.uid cell)
  ∨ (∃ target, action = .attack b.activePlayer u.uid target)
  ∨ ∃ slot target, action = .activate b.activePlayer u.uid slot target
  := by
  rw [unitCandidates, List.mem_append, List.mem_append] at h
  obtain (hmove | hattack) | huse := h
  · obtain ⟨cell, -, rfl⟩ := List.mem_map.mp hmove
    exact .inl ⟨cell, rfl⟩
  · obtain ⟨target, -, rfl⟩ := List.mem_map.mp hattack
    exact .inr (.inl ⟨target, rfl⟩)
  · obtain ⟨slot, target, rfl, -⟩ := mem_abilityCandidates huse
    exact .inr (.inr ⟨slot, target, rfl⟩)

/-- The candidates for units of different uids are different. -/
theorem uid_of_mem_unitCandidates {v : BoardUnit} (hu : action ∈ rules.unitCandidates b side u)
    (hv : action ∈ rules.unitCandidates b side v) :
  u.uid = v.uid
  := by
  obtain ⟨_, rfl⟩ | ⟨_, rfl⟩ | ⟨_, _, rfl⟩ := mem_unitCandidates hu
  · simpa using mem_unitCandidates hv
  · simpa using mem_unitCandidates hv
  · simpa using mem_unitCandidates hv

/-- The end of a turn is no candidate. -/
theorem endTurn_not_mem_candidates (player : UInt8) :
  .endTurn player ∉ rules.candidates b
  := by
  rw [candidates]
  split
  · apply List.not_mem_nil
  · intro h
    rcases List.mem_append.mp h with hplay | hunit
    · obtain ⟨place, cell, hsame⟩ := mem_playCandidates hplay
      cases hsame
    · obtain ⟨u, -, hunit⟩ := List.mem_flatMap.mp hunit
      simpa using mem_unitCandidates hunit

/-- The candidates list each of them as often as the legal actions do. -/
theorem count_candidates (hb : b.Coherent) (hside : b.side? b.activePlayer = some side)
    (hhand : side.hand.length ≤ UInt64.size) (h : action ∈ rules.candidates b) :
  (rules.candidates b).count action = rules.listings b action
  := by
  rw [candidates, hside] at h ⊢
  dsimp only at h ⊢
  rw [List.count_append]
  have hexclusive : ∀ u, action ∈ rules.unitCandidates b side u →
      action ∉ playCandidates b side := by
    intro u hunit hplay
    obtain ⟨place, cell, rfl⟩ := mem_playCandidates hplay
    simpa using mem_unitCandidates hunit
  rcases List.mem_append.mp h with hplay | hunit
  · have hnone : action ∉ side.board.units.flatMap (rules.unitCandidates b side) := by
      intro hunit
      obtain ⟨u, -, hunit⟩ := List.mem_flatMap.mp hunit
      exact hexclusive u hunit hplay
    rw [List.count_eq_one_of_mem (nodup_playCandidates hhand) hplay,
      List.count_eq_zero.mpr hnone]
    obtain ⟨place, cell, rfl⟩ := mem_playCandidates hplay
    rfl
  · obtain ⟨u, hu, hunit⟩ := List.mem_flatMap.mp hunit
    have hsublist := Battle.units_sublist hside
    have hdistinct := hb.distinct.sublist (hsublist.map _)
    have hfind := Battle.find?_of_mem hb.distinct (hsublist.subset hu)
    rw [List.count_eq_zero.mpr (hexclusive u hunit), Nat.zero_add,
      count_flatMap_of_mem hdistinct.of_map hu, count_unitCandidates hb hfind hunit]
    intro v hv hne hmem
    apply hne
    apply List.inj_on_of_nodup_map hdistinct hv hu
    apply uid_of_mem_unitCandidates hmem hunit

/-! ### The legal actions -/

/-- For an action that passes the filter a permit is issued. -/
theorem exists_permit (h : (rules.validate b action).toBool) :
  ∃ permit, rules.permit b action = .ok permit
  := by
  apply validate_eq_ok.mp
  cases hvalid : rules.validate b action with
  | error r => simp [hvalid, Except.toBool] at h
  | ok _ => rfl

/-- An action is listed at most once if no card has two active abilities in one slot. -/
theorem listings_le_one (hcards : ∀ card ∈ rules.catalog.cards, card.activeSlots.Nodup)
    (action : Action) :
  rules.listings b action ≤ 1
  := by
  cases action with
  | activate player uid slot target =>
    rw [listings]
    split
    · apply Nat.zero_le
    · next card hcard =>
      obtain ⟨u, -, hcard⟩ := Option.bind_eq_some_iff.mp hcard
      have hslots := hcards card (List.mem_of_find?_eq_some hcard)
      calc (card.activesIn slot).countP (fun ability => ability.needsTarget = target.isSome)
          ≤ (card.activesIn slot).length := List.countP_le_length
        _ = card.activeSlots.count slot := (card.count_activeSlots slot).symm
        _ ≤ 1 := List.nodup_iff_count_le_one.mp hslots slot
  | _ => apply Nat.le_refl

end Ruleset

/-- If the hand of the active player has no more places than there are words, each legal
action is listed once, but an activation once for each active ability of the unit in the slot
that needs a target if and only if the activation has one.  So none is listed twice exactly if
none comes from two such abilities, and hence if no card has two active abilities in one
slot. -/
theorem legalActions_count (rules : Ruleset) (b : Battle)
    (hhand : ∀ side, b.side? b.activePlayer = some side → side.hand.length ≤ UInt64.size) :
  (∀ action ∈ rules.legalActions b,
      (rules.legalActions b).count action = rules.listings b action)
  ∧ ((rules.legalActions b).Nodup
      ↔ ∀ action ∈ rules.legalActions b, rules.listings b action = 1)
  ∧ ((∀ card ∈ rules.catalog.cards, card.activeSlots.Nodup) → (rules.legalActions b).Nodup)
  := by
  have hcount : ∀ action ∈ rules.legalActions b,
      (rules.legalActions b).count action = rules.listings b action := by
    intro action h
    rw [Ruleset.legalActions, List.count_append]
    rcases List.mem_append.mp h with haccepted | hend
    · obtain ⟨hcandidate, hvalid⟩ := List.mem_filter.mp haccepted
      have hother : action ≠ .endTurn b.activePlayer := by
        rintro rfl
        exact Ruleset.endTurn_not_mem_candidates _ hcandidate
      obtain ⟨permit, hpermit⟩ := Ruleset.exists_permit hvalid
      have hb := (Battle.corruption?_eq_none_iff.mp (Ruleset.permit_ok hpermit).1).toCoherent
      cases hside : b.side? b.activePlayer with
      | none =>
        rw [Ruleset.candidates, hside] at hcandidate
        cases hcandidate
      | some side =>
        rw [List.count_filter (p := fun action => (rules.validate b action).toBool) hvalid,
          Ruleset.count_candidates hb hside (hhand side hside) hcandidate,
          List.count_eq_zero.mpr (by simpa using hother), Nat.add_zero]
    · obtain rfl := List.mem_singleton.mp hend
      rw [List.count_singleton_self, List.count_eq_zero.mpr]
      · rfl
      · intro hmem
        exact Ruleset.endTurn_not_mem_candidates _ (List.mem_filter.mp hmem).1
  have hnodup : (rules.legalActions b).Nodup
      ↔ ∀ action ∈ rules.legalActions b, rules.listings b action = 1 := by
    rw [List.nodup_iff_count_eq_one]
    constructor
    · intro h action haction
      rw [← hcount action haction]
      exact h action haction
    · intro h action haction
      rw [hcount action haction]
      exact h action haction
  refine ⟨hcount, hnodup, ?_⟩
  intro hcards
  apply hnodup.mpr
  intro action haction
  apply Nat.le_antisymm (Ruleset.listings_le_one hcards action)
  rw [← hcount action haction]
  exact List.one_le_count_iff.mpr haction

/-- Two abilities in one slot, neither of which needs a target. -/
def Card.twin : Card :=
  { id := "twin"
    name := "Twin"
    abilities := [
      { kind := .active, slot := some 1
        rules := [{ trigger := .activate, script := [.draw 1] }] },
      { kind := .active, slot := some 1
        rules := [{ trigger := .activate, script := [.draw 2] }] }] }

/-- Every legal action of a spy that faces another unit is listed once. -/
theorem legalActions_count_espionage :
  let rules : Ruleset := { catalog := ⟨[.spy], by decide⟩ }
  (∀ side, Battle.espionage.side? 0 = some side → side.hand.length ≤ UInt64.size)
    ∧ (rules.legalActions .espionage).Nodup
  := by
  intro rules
  have hhand : ∀ side, Battle.espionage.side? 0 = some side →
      side.hand.length ≤ UInt64.size := by
    rintro _ ⟨⟩
    decide
  use hhand
  obtain ⟨-, -, hnodup⟩ := legalActions_count rules .espionage hhand
  apply hnodup
  decide

/-- A unit with two active abilities in one slot: to use the slot is listed twice. -/
theorem legalActions_repeat_twin :
  let rules : Ruleset := { catalog := ⟨[.twin], by decide⟩ }
  let b : Battle := { Battle.duel with
    side0.board := ⟨[some {
      uid := ⟨1⟩, cardId := "twin", owner := 0, cell := ⟨.front, 0⟩, vitality := 3,
      vitalityMax := 3, impact := 2, defence := 0, velocity := 1 },
      none, none, none, none, none], rfl⟩ }
  b.corruption? = none
    ∧ (rules.legalActions b).count (.activate 0 ⟨1⟩ 1 none) = 2
    ∧ ¬(rules.legalActions b).Nodup
  := by
  intro rules b
  have htwice : (rules.legalActions b).count (.activate 0 ⟨1⟩ 1 none) = 2 := by decide +kernel
  refine ⟨by decide +kernel, htwice, ?_⟩
  intro hnodup
  have honce := List.nodup_iff_count_le_one.mp hnodup (.activate 0 ⟨1⟩ 1 none)
  omega

end CardBattle
