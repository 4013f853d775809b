import CardBattle.SortedMap
import Mathlib.Data.List.Nodup
import Mathlib.Data.List.Perm.Basic

/-!
# The order of entries

The order in which entries are given to a map does not matter as long as no two of them have
the same key: the map has them in the order of their keys in any case.
-/

namespace CardBattle.SortedMap

variable {κ ν : Type} [Key κ] {m : SortedMap κ ν} {entries : List (κ × ν)}

/-- The keys of a map are distinct. -/
theorem nodup_keys (m : SortedMap κ ν) :
  (m.entries.map Prod.fst).Nodup
  := by
  apply List.pairwise_map.mpr
  apply m.sorted.imp
  intro e e' hbefore hsame
  rw [hsame, Key.before_irrefl] at hbefore
  cases hbefore

theorem insertEntry_perm {k : κ} {v : ν} (h : k ∉ entries.map Prod.fst) :
  (insertEntry k v entries).Perm ((k, v) :: entries)
  := by
  induction entries with
  | nil => rfl
  | cons e rest ih =>
    rw [List.map_cons, List.mem_cons, not_or] at h
    rw [insertEntry]
    split
    · rfl
    · next hafter =>
      split
      · exact ((ih h.2).cons e).trans (.swap _ _ rest)
      · next hbefore =>
        have hsame := Key.before_total _ _ (by simpa using hafter) (by simpa using hbefore)
        exact absurd hsame h.1

/-- Entries with new and distinct keys are added to those that a map has. -/
theorem foldl_insert_perm (h : (m.entries.map Prod.fst ++ entries.map Prod.fst).Nodup) :
  (entries.foldl (fun m e => m.insert e.1 e.2) m).entries.Perm (m.entries ++ entries)
  := by
  induction entries generalizing m with
  | nil => rw [List.foldl_nil, List.append_nil]
  | cons e rest ih =>
    obtain ⟨-, hrest, hdisjoint⟩ := List.nodup_append.mp h
    have hnew : e.1 ∉ m.entries.map Prod.fst := by
      intro hmem
      apply hdisjoint e.1 hmem e.1 List.mem_cons_self rfl
    have hinsert : (m.insert e.1 e.2).entries.Perm (e :: m.entries) := insertEntry_perm hnew
    rw [List.foldl_cons]
    apply (ih _).trans
    · exact (hinsert.append_right rest).trans List.perm_middle.symm
    · apply h.perm
      rw [List.map_cons]
      exact List.perm_middle.trans ((hinsert.map Prod.fst).append_right _).symm

/-- A map is made of its entries in any order. -/
theorem ofList_perm (h : entries.Perm m.entries) :
  ofList entries = m
  := by
  have hnodup : (entries.map Prod.fst).Nodup := m.nodup_keys.perm (h.map Prod.fst).symm
  have hperm : (ofList entries).entries.Perm m.entries :=
    (foldl_insert_perm (m := empty) hnodup).trans h
  apply SortedMap.ext
  apply hperm.eq_of_pairwise _ (ofList entries).sorted m.sorted
  intro e e' _ _ hbefore hafter
  have hself := Key.before_trans _ _ _ hbefore hafter
  rw [Key.before_irrefl] at hself
  cases hself

end CardBattle.SortedMap
