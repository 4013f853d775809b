import CardBattle.BoardUnit.Basic

/-!
# The supply of attack modifiers

The attack modifiers of a unit are a list that grows at its end only, with modifiers that no
attack has consumed (`AttackModifier.Adds`).  An attack consumes the first of those that none
has consumed before (`AttackModifier.Spends`).  Both leave every modifier in its place with its
boost, and what is consumed stays so (`AttackModifier.Carries`).
-/

namespace CardBattle

namespace AttackModifier

/-- Modifiers that no attack has consumed have come behind those that there were. -/
def Adds (before after : List AttackModifier) : Prop :=
  ∃ fresh, after = before ++ fresh ∧ ∀ m ∈ fresh, ¬m.consumed

/-- Of some modifiers an attack consumes the first that none has consumed before, should there
be one. -/
inductive Spends : List AttackModifier → Option AttackModifier → List AttackModifier → Prop
  | nothing {l : List AttackModifier} (h : ∀ m ∈ l, m.consumed) : Spends l none l
  | first {earlier later : List AttackModifier} {m : AttackModifier}
      (hearlier : ∀ m ∈ earlier, m.consumed) (hm : ¬m.consumed) :
      Spends (earlier ++ m :: later) (some m) (earlier ++ { m with consumed := true } :: later)

/-- The modifier has the boost of another, and is consumed if that is. -/
def Follows (m m' : AttackModifier) : Prop :=
  m'.toBoost = m.toBoost ∧ (m.consumed → m'.consumed)

/-- Every modifier is still in its place, with its boost, and consumed if it was. -/
def Carries (before after : List AttackModifier) : Prop :=
  ∀ (place : Nat) (m : AttackModifier), before[place]? = some m →
    ∃ m', after[place]? = some m' ∧ m.Follows m'

variable {l l' l'' : List AttackModifier} {m m' m'' : AttackModifier}

/-! ### Modifiers that come -/

theorem Adds.refl (l : List AttackModifier) :
  Adds l l
  := ⟨[], (List.append_nil l).symm, by simp⟩

theorem Adds.trans (h : Adds l l') (h' : Adds l' l'') :
  Adds l l''
  := by
  obtain ⟨fresh, rfl, hfresh⟩ := h
  obtain ⟨fresh', rfl, hfresh'⟩ := h'
  refine ⟨fresh ++ fresh', List.append_assoc .., ?_⟩
  intro m hm
  rcases List.mem_append.mp hm with hm | hm
  · exact hfresh m hm
  · exact hfresh' m hm

/-- A boost that is granted is not consumed. -/
theorem adds_boost (l : List AttackModifier) (boost : Boost) :
  Adds l (l ++ [{ toBoost := boost }])
  := by
  refine ⟨_, rfl, ?_⟩
  intro m hm
  obtain rfl := List.mem_singleton.mp hm
  exact Bool.false_ne_true

theorem Adds.leading (h : Adds l l') :
  l <+: l'
  := by
  obtain ⟨fresh, rfl, -⟩ := h
  apply List.prefix_append

/-! ### Modifiers that stay -/

theorem Follows.refl (m : AttackModifier) :
  m.Follows m
  := ⟨rfl, id⟩

theorem Follows.trans (h : m.Follows m') (h' : m'.Follows m'') :
  m.Follows m''
  := ⟨h'.1.trans h.1, fun hm => h'.2 (h.2 hm)⟩

theorem Carries.trans (h : Carries l l') (h' : Carries l' l'') :
  Carries l l''
  := by
  intro place m hm
  obtain ⟨m', hm', hfollows⟩ := h place m hm
  obtain ⟨m'', hm'', hfollows'⟩ := h' place m' hm'
  exact ⟨m'', hm'', hfollows.trans hfollows'⟩

theorem Adds.carries (h : Adds l l') :
  Carries l l'
  := by
  obtain ⟨fresh, rfl, -⟩ := h
  intro place m hm
  refine ⟨m, ?_, .refl m⟩
  rw [List.getElem?_append_left (List.getElem?_eq_some_iff.mp hm).1]
  exact hm

theorem Spends.carries {used : Option AttackModifier} (h : Spends l used l') :
  Carries l l'
  := by
  cases h with
  | nothing => exact fun _ m hm => ⟨m, hm, .refl m⟩
  | @first earlier later used _ _ =>
    intro place m hm
    rw [List.getElem?_append] at hm ⊢
    split
    · next hplace =>
      rw [if_pos hplace] at hm
      exact ⟨m, hm, .refl m⟩
    · next hplace =>
      rw [if_neg hplace] at hm
      rw [List.getElem?_cons] at hm ⊢
      split
      · next hzero =>
        rw [if_pos hzero] at hm
        obtain rfl := Option.some.inj hm
        exact ⟨_, rfl, rfl, fun _ => rfl⟩
      · next hzero =>
        rw [if_neg hzero] at hm
        exact ⟨m, hm, .refl m⟩

end AttackModifier

/-- To change the element behind some others is to change the one at the place after them. -/
theorem modify_length_append {α : Type} (f : α → α) (l r : List α) (a : α) :
  (l ++ a :: r).modify l.length f = l ++ f a :: r
  := by
  induction l with
  | nil => rfl
  | cons b l ih => simp [ih]

namespace BoardUnit

open AttackModifier

variable {u : BoardUnit} {place : Nat}

/-- The unit when an attack has consumed the first of its modifiers that none has consumed
before. -/
def spent (u : BoardUnit) : BoardUnit :=
  match u.pendingModifier? with
  | some place => u.consumeModifier place
  | none => u

/-- The modifier that is pending is the first that no attack has consumed. -/
theorem cut_of_pending (h : u.pendingModifier? = some place) :
  ∃ earlier m later, u.modifiers = earlier ++ m :: later ∧ earlier.length = place
    ∧ (∀ m ∈ earlier, m.consumed) ∧ ¬m.consumed
  := by
  obtain ⟨hplace, hfree, hearlier⟩ := List.findIdx?_eq_some_iff_getElem.mp h
  refine ⟨u.modifiers.take place, u.modifiers[place], u.modifiers.drop (place + 1), ?_, ?_, ?_, ?_⟩
  · rw [← List.drop_eq_getElem_cons hplace, List.take_append_drop]
  · exact List.length_take_of_le (Nat.le_of_lt hplace)
  · intro m hm
    obtain ⟨i, hi, rfl⟩ := List.mem_take_iff_getElem.mp hm
    simpa using hearlier i (by omega)
  · simpa using hfree

/-- An attack consumes the modifier that is pending. -/
theorem spends (u : BoardUnit) :
  Spends u.modifiers (u.pendingModifier?.bind (u.modifiers[·]?)) u.spent.modifiers
  := by
  rw [spent]
  cases hpending : u.pendingModifier? with
  | none =>
    apply Spends.nothing
    intro m hm
    simpa using List.findIdx?_eq_none_iff.mp hpending m hm
  | some place =>
    obtain ⟨earlier, m, later, hcut, rfl, hearlier, hm⟩ := cut_of_pending hpending
    dsimp only [consumeModifier]
    rw [Option.bind_some, hcut, modify_length_append]
    simpa using Spends.first hearlier hm

/-- The place that is pending is that of a modifier that no attack has consumed; when the
attack has consumed it, it is in its place still. -/
theorem modifier_of_pending (h : u.pendingModifier? = some place) :
  ∃ m, u.modifiers[place]? = some m ∧ ¬m.consumed
    ∧ u.spent.modifiers[place]? = some { m with consumed := true }
  := by
  obtain ⟨earlier, m, later, hcut, rfl, -, hm⟩ := cut_of_pending h
  refine ⟨m, by simp [hcut], hm, ?_⟩
  rw [spent, h]
  simp [consumeModifier, hcut]

end BoardUnit

end CardBattle
