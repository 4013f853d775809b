import CardBattle.Proofs.Battle.Coherence

/-!
# Looking up units after a change

When a unit of a coherent battle is replaced by another of its uid, the one that comes is
found at this uid, and all other units are found as before.  When all units are changed, what
is found at a uid is what has become of the unit that was found there before.

Where all units come from units that were there before, these are still there or have been lost
(`Battle.lost`); those that are still there are, as far as a unit keeps what it was, all that
there are (`Coherent.perm_present`).
-/

namespace CardBattle

namespace Battle

/-- Whether there is a unit of the uid on a board. -/
def has (b : Battle) (uid : Uid) : Bool :=
  (b.find? uid).isSome

/-- The units that are not on the boards of another battle. -/
def lost (b b' : Battle) : List BoardUnit :=
  b.units.filter fun u => !b'.has u.uid

variable {b b' : Battle} {u v : BoardUnit}

theorem has_of_mem (hu : u ∈ b.units) :
  b.has u.uid
  := by
  rw [has, find?, List.find?_isSome]
  exact ⟨u, hu, by simp⟩

/-- The units when one of them is replaced. -/
theorem Coherent.units_replace (hb : b.Coherent) (hu : b.find? u.uid = some u)
    (huid : v.uid = u.uid) :
  ∃ l r, b.units = l ++ [u] ++ r ∧ (b.replace v).units = l ++ [v] ++ r
  := by
  obtain ⟨side, i, board, hside, hturns, hreplace⟩ := hb.replace_turns hu huid
  obtain ⟨l, r, hold, hnew⟩ := units_turns hside hturns
  use l, r, hold
  rw [hreplace, hnew]
  rfl

/-- The units when one of them is replaced are the new one and others of other uids. -/
theorem Coherent.mem_replace (hb : b.Coherent) (hu : b.find? u.uid = some u)
    (huid : v.uid = u.uid) {w : BoardUnit} (hw : w ∈ (b.replace v).units) :
  w = v ∨ (w ∈ b.units ∧ w.uid ≠ v.uid)
  := by
  obtain ⟨l, r, hold, hnew⟩ := hb.units_replace hu huid
  have hdistinct := hb.distinct
  rw [hold] at hdistinct
  rw [hnew] at hw
  obtain hw | rfl : w ∈ l ++ r ∨ w = v := by
    simp only [List.mem_append, List.mem_singleton] at hw ⊢
    tauto
  · right
    constructor
    · rw [hold]
      simp only [List.mem_append] at hw ⊢
      tauto
    · rw [huid]
      apply uid_ne_of_distinct hdistinct w hw
  · left
    rfl

/-- What holds of the new unit and of all units before holds of all units when one of them is
replaced. -/
theorem Coherent.forall_replace {P : BoardUnit → Prop} (hb : b.Coherent)
    (hu : b.find? u.uid = some u) (huid : v.uid = u.uid) (hv : P v)
    (hunits : ∀ u ∈ b.units, P u) :
  ∀ u ∈ (b.replace v).units, P u
  := by
  intro w hw
  obtain rfl | ⟨hmem, -⟩ := hb.mem_replace hu huid hw
  · apply hv
  · apply hunits w hmem

/-- What is found at a uid when a unit has been replaced. -/
theorem Coherent.find?_replace (hb : b.Coherent) (hu : b.find? u.uid = some u)
    (huid : v.uid = u.uid) (uid : Uid) :
  (b.replace v).find? uid = if uid = u.uid then some v else b.find? uid
  := by
  obtain ⟨l, r, hold, hnew⟩ := hb.units_replace hu huid
  have hdistinct := hb.distinct
  rw [hold] at hdistinct
  have hne := uid_ne_of_distinct hdistinct
  simp only [Battle.find?, hold, hnew, List.find?_append]
  by_cases h : uid = u.uid
  · subst h
    have hl : l.find? (fun w => w.uid = u.uid) = none := by
      apply List.find?_eq_none.mpr
      intro w hw
      simpa using hne w (List.mem_append_left r hw)
    simp [hl, huid]
  · have hv : ¬v.uid = uid := by
      rw [huid]
      exact Ne.symm h
    simp [h, hv, Ne.symm h]

/-- What passes a test first in two lists is related when all their elements are. -/
theorem find?_of_forall {α : Type} {R : α → α → Prop} {p : α → Bool} {l l' : List α}
    (h : List.Forall₂ R l l') (hp : ∀ a a', R a a' → p a' = p a) :
  Option.Rel R (l.find? p) (l'.find? p)
  := by
  induction h with
  | nil => exact .none
  | @cons a a' _ _ ha _ ih =>
    rw [List.find?_cons, List.find?_cons, hp a a' ha]
    split
    · exact .some ha
    · exact ih

/-- What is found at a uid when all units have been changed and have kept their uids. -/
theorem find?_changeAll {f : BoardUnit → Except Fault BoardUnit}
    (hf : ∀ u v, f u = .ok v → v.uid = u.uid) (h : b.changeAll f = .ok b') (uid : Uid) :
  Option.Rel (fun u v => f u = .ok v) (b.find? uid) (b'.find? uid)
  := by
  apply find?_of_forall (changeAll_units h)
  intro u v hv
  rw [hf u v hv]

/-! ### Units that are still there -/

/-- If all units come from units before, those from before that are still there are all that
there are, as far as a key tells that every unit keeps. -/
theorem Coherent.perm_present {κ : Type} {key : BoardUnit → κ}
    (hkey : ∀ u v : BoardUnit, u.Persists v → key v = key u) (hb : b.Coherent)
    (hb' : b'.Coherent) (hfrom : ∀ v ∈ b'.units, ∃ u ∈ b.units, u.Persists v) :
  ((b.units.filter fun u => b'.has u.uid).map key).Perm (b'.units.map key)
  := by
  have huids : ((b.units.filter fun u => b'.has u.uid).map BoardUnit.uid).Perm
      (b'.units.map BoardUnit.uid) := by
    apply (List.perm_ext_iff_of_nodup _ hb'.distinct).mpr
    · intro uid
      simp only [List.mem_map, List.mem_filter]
      constructor
      · rintro ⟨u, ⟨-, hthere⟩, rfl⟩
        obtain ⟨v, hv⟩ := Option.isSome_iff_exists.mp hthere
        exact ⟨v, mem_of_find? hv, find?_uid hv⟩
      · rintro ⟨v, hv, rfl⟩
        obtain ⟨u, hu, hpersists⟩ := hfrom v hv
        refine ⟨u, ⟨hu, ?_⟩, hpersists.uid.symm⟩
        rw [← hpersists.uid]
        apply has_of_mem hv
    · apply List.Nodup.sublist _ hb.distinct
      apply List.filter_sublist.map
  -- A unit from before is known by its uid, and with it the key.
  have hknown : ∀ l : List BoardUnit, (∀ u ∈ l, (b.find? u.uid).map key = some (key u)) →
      (l.map BoardUnit.uid).filterMap (fun uid => (b.find? uid).map key) = l.map key := by
    intro l hl
    rw [List.filterMap_map, ← List.filterMap_eq_map]
    apply List.filterMap_congr hl
  rw [← hknown, ← hknown]
  · apply huids.filterMap
  · intro v hv
    obtain ⟨u, hu, hpersists⟩ := hfrom v hv
    rw [hpersists.uid, find?_of_mem hb.distinct hu, hkey u v hpersists]
    rfl
  · intro u hu
    rw [find?_of_mem hb.distinct (List.mem_of_mem_filter hu)]
    rfl

/-- No abilities are noted as used when a unit is replaced. -/
theorem used_replace (b : Battle) (u : BoardUnit) (player : UInt8) :
  ((b.replace u).side? player).map Side.used = (b.side? player).map Side.used
  := by
  simp only [replace, side?]
  split <;> split <;> try rfl
  all_goals split <;> rfl

end Battle

end CardBattle
