import CardBattle.SortedMap
import CardBattle.Proofs.Change.Composition

/-!
# Looking up keys in sorted maps

What is found at a key after a map was changed: an insertion is found at its own key only, a
change of one value at the key of that value only, and a change of all values at every key.
In the map of some entries, the last entry of a key is found.
-/

namespace CardBattle

namespace SortedMap

variable {κ ν : Type} [Key κ] [DecidableEq κ] {k k' : κ}

theorem find?_insertEntry (v : ν) (l : List (κ × ν)) :
  (insertEntry k v l).find? (fun e => e.1 = k') =
    if k' = k then some (k, v) else l.find? (fun e => e.1 = k')
  := by
  induction l with
  | nil =>
    by_cases h : k' = k
    · simp [insertEntry, h]
    · simp [insertEntry, h, Ne.symm h]
  | cons e rest ih =>
    rw [insertEntry]
    split
    · by_cases h : k' = k
      · simp [h]
      · simp [h, Ne.symm h]
    · next hbefore =>
      split
      · next hafter =>
        have hne : e.1 ≠ k := by
          rintro rfl
          rw [Key.before_irrefl] at hafter
          cases hafter
        rw [List.find?_cons, ih, List.find?_cons]
        by_cases h : k' = k
        · simp [h, hne]
        · simp only [if_neg h]
      · next hafter =>
        have hsame := Key.before_total _ _ (by simpa using hbefore) (by simpa using hafter)
        by_cases h : k' = k
        · simp [h]
        · simp [h, Ne.symm h, ← hsame]

@[simp]
theorem find?_insert (m : SortedMap κ ν) (k k' : κ) (v : ν) :
  (m.insert k v).find? k' = if k' = k then some v else m.find? k'
  := by
  rw [find?, insert, find?_insertEntry]
  split
  · rfl
  · rfl

@[simp]
theorem contains_insert (m : SortedMap κ ν) (k k' : κ) (v : ν) :
  (m.insert k v).contains k' = (decide (k' = k) || m.contains k')
  := by
  rw [contains, find?_insert]
  by_cases h : k' = k
  · simp [h]
  · simp [h, contains]

@[simp]
theorem find?_mapValues {ω : Type} (f : ν → ω) (m : SortedMap κ ν) (k : κ) :
  (m.mapValues f).find? k = (m.find? k).map f
  := by
  simp only [find?, mapValues, List.find?_map, Option.map_map]
  rfl

@[simp]
theorem find?_modify (m : SortedMap κ ν) (k k' : κ) (f : ν → ν) :
  (m.modify k f).find? k' = if k' = k then (m.find? k').map f else m.find? k'
  := by
  rw [modify]
  split
  · next v hv =>
    rw [find?_insert]
    split
    · next h => rw [h, hv, Option.map_some]
    · rfl
  · next hnone =>
    split
    · next h => rw [h, hnone, Option.map_none]
    · rfl

/-- In the map of some entries, the value of the last entry with the key is found. -/
theorem find?_ofList (l : List (κ × ν)) (k : κ) :
  (ofList l).find? k = ((l.filter (fun e => e.1 = k)).map (·.2)).getLast?
  := by
  have hfold : ∀ m : SortedMap κ ν, (l.foldl (fun m e => m.insert e.1 e.2) m).find? k
      = (((l.filter (fun e => e.1 = k)).map (·.2)).getLast?).or (m.find? k) := by
    induction l with
    | nil =>
      intro m
      rfl
    | cons e rest ih =>
      intro m
      rw [List.foldl_cons, ih, find?_insert]
      by_cases he : e.1 = k
      · rw [if_pos he.symm, List.filter_cons_of_pos (by simpa using he), List.map_cons,
          List.getLast?_cons, Option.or_some, Option.some_or]
      · rw [if_neg (Ne.symm he), List.filter_cons_of_neg (by simpa using he)]
  rw [ofList, hfold]
  exact Option.or_none

/-! ### Keys -/

theorem mem_keys {m : SortedMap κ ν} :
  k ∈ m.keys ↔ m.contains k
  := by simp [keys, contains, find?]

@[simp]
theorem mem_keys_insert {m : SortedMap κ ν} {v : ν} :
  k' ∈ (m.insert k v).keys ↔ k' = k ∨ k' ∈ m.keys
  := by simp [mem_keys]

omit [DecidableEq κ] in
@[simp]
theorem keys_mapValues {ω : Type} (f : ν → ω) (m : SortedMap κ ν) :
  (m.mapValues f).keys = m.keys
  := by simp [keys, mapValues]

@[simp]
theorem mem_keys_modify {m : SortedMap κ ν} {f : ν → ν} :
  k' ∈ (m.modify k f).keys ↔ k' ∈ m.keys
  := by
  simp only [mem_keys, contains, find?_modify]
  split
  · simp
  · rfl

/-- The keys of the map of some entries are those of the entries. -/
theorem mem_keys_ofList {l : List (κ × ν)} :
  k ∈ (ofList l).keys ↔ k ∈ l.map (·.1)
  := by
  have hfold : ∀ m : SortedMap κ ν, k ∈ (l.foldl (fun m e => m.insert e.1 e.2) m).keys
      ↔ k ∈ m.keys ∨ k ∈ l.map (·.1) := by
    induction l with
    | nil => simp
    | cons e rest ih =>
      intro m
      rw [List.foldl_cons, ih, mem_keys_insert, List.map_cons, List.mem_cons, or_assoc,
        or_left_comm]
  rw [ofList, hfold]
  simp [keys, empty]

end SortedMap

end CardBattle
