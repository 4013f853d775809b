/-!
# Sorted maps

A finite map is the list of its entries in increasing order of their keys, so that two
maps with the same entries are equal.  A set is a map to `Unit`.

Inserting keeps the order (`SortedMap.insertEntry_pairwise`), and a map is rebuilt from
its own entries (`SortedMap.ofList_entries`).
-/

namespace CardBattle

/-- A type of keys: a strict total order that can be decided. -/
class Key (κ : Type) where
  /-- The first key comes strictly before the second. -/
  before : κ → κ → Bool
  before_irrefl : ∀ a, before a a = false
  before_trans : ∀ a b c, before a b = true → before b c = true → before a c = true
  before_total : ∀ a b, before a b = false → before b a = false → a = b

instance : Key UInt8 where
  before a b := decide (a < b)
  before_irrefl a := by simp
  before_trans a b c h h' := by
    simp only [decide_eq_true_eq, UInt8.lt_iff_toNat_lt] at *
    omega
  before_total a b h h' := by
    simp only [decide_eq_false_iff_not, UInt8.lt_iff_toNat_lt] at *
    exact UInt8.toNat_inj.mp (by omega)

instance : Key String where
  before a b := decide (a < b)
  before_irrefl a := by simp
  before_trans a b c h h' := by
    simp only [decide_eq_true_eq] at *
    exact String.lt_trans h h'
  before_total a b h h' := by
    simp only [decide_eq_false_iff_not] at *
    exact String.le_antisymm h' h

/-- A finite map, given by its entries in increasing order of their keys. -/
@[ext]
structure SortedMap (κ ν : Type) [Key κ] where
  entries : List (κ × ν)
  sorted : entries.Pairwise (fun a b => Key.before a.1 b.1 = true)
deriving DecidableEq

/-- A finite set is a map without values. -/
abbrev SortedSet (κ : Type) [Key κ] := SortedMap κ Unit

namespace SortedMap

variable {κ ν : Type} [Key κ]

/-- The list with the entry `(k, v)` at its place, instead of an entry for `k` there may
have been. -/
def insertEntry (k : κ) (v : ν) : List (κ × ν) → List (κ × ν)
  | [] => [(k, v)]
  | e :: rest =>
      if Key.before k e.1 then (k, v) :: e :: rest
      else if Key.before e.1 k then e :: insertEntry k v rest
      else (k, v) :: rest

/-- An entry after an insertion is the new one or an old one. -/
theorem mem_insertEntry {k : κ} {v : ν} {e : κ × ν} {l : List (κ × ν)} :
  e ∈ insertEntry k v l → e = (k, v) ∨ e ∈ l
  := by
  induction l with
  | nil => simp [insertEntry]
  | cons a rest ih => grind [insertEntry]

/-- Inserting keeps the keys in increasing order. -/
theorem insertEntry_pairwise (k : κ) (v : ν) {l : List (κ × ν)}
    (h : l.Pairwise (fun a b => Key.before a.1 b.1 = true)) :
  (insertEntry k v l).Pairwise (fun a b => Key.before a.1 b.1 = true)
  := by
  induction l with
  | nil => simp [insertEntry]
  | cons e rest ih =>
    obtain ⟨he, hrest⟩ := List.pairwise_cons.mp h
    unfold insertEntry
    split
    · next hk =>
      apply List.pairwise_cons.mpr ⟨_, h⟩
      intro a ha
      rcases List.mem_cons.mp ha with rfl | ha
      · exact hk
      · exact Key.before_trans _ _ _ hk (he a ha)
    · next hk =>
      split
      · next hk' =>
        apply List.pairwise_cons.mpr ⟨_, ih hrest⟩
        intro a ha
        rcases mem_insertEntry ha with rfl | ha
        · exact hk'
        · exact he a ha
      · next hk' =>
        obtain rfl := Key.before_total _ _ (by simpa using hk) (by simpa using hk')
        exact List.pairwise_cons.mpr ⟨he, hrest⟩

/-- The map without entries. -/
def empty : SortedMap κ ν := ⟨[], .nil⟩

instance : EmptyCollection (SortedMap κ ν) := ⟨empty⟩

instance : Inhabited (SortedMap κ ν) := ⟨empty⟩

/-- The map that sends `k` to `v` and is `m` elsewhere. -/
def insert (m : SortedMap κ ν) (k : κ) (v : ν) : SortedMap κ ν :=
  ⟨insertEntry k v m.entries, insertEntry_pairwise k v m.sorted⟩

/-- The map of the given entries; of two entries with one key the later one counts. -/
def ofList (l : List (κ × ν)) : SortedMap κ ν :=
  l.foldl (fun m e => m.insert e.1 e.2) empty

/-- The keys in increasing order. -/
def keys (m : SortedMap κ ν) : List κ :=
  m.entries.map (·.1)

/-- The value at `k`, if there is one. -/
def find? [DecidableEq κ] (m : SortedMap κ ν) (k : κ) : Option ν :=
  (m.entries.find? (fun e => e.1 = k)).map (·.2)

/-- Whether `k` is a key of the map. -/
def contains [DecidableEq κ] (m : SortedMap κ ν) (k : κ) : Bool :=
  (m.find? k).isSome

/-- The map with the same keys and every value changed by `f`. -/
def mapValues {ω : Type} (f : ν → ω) (m : SortedMap κ ν) : SortedMap κ ω :=
  ⟨m.entries.map (fun e => (e.1, f e.2)), List.pairwise_map.mpr m.sorted⟩

/-- The map with the value at `k`, if there is one, changed by `f`. -/
def modify [DecidableEq κ] (m : SortedMap κ ν) (k : κ) (f : ν → ν) : SortedMap κ ν :=
  match m.find? k with
  | some v => m.insert k (f v)
  | none => m

/-- An entry whose key comes after all others goes to the end. -/
theorem insertEntry_eq_append {k : κ} {v : ν} {l : List (κ × ν)}
    (h : ∀ e ∈ l, Key.before e.1 k = true) :
  insertEntry k v l = l ++ [(k, v)]
  := by
  induction l with
  | nil => rfl
  | cons e rest ih =>
    obtain ⟨he, hrest⟩ := List.forall_mem_cons.mp h
    have hk : Key.before k e.1 = false := by
      cases hke : Key.before k e.1 with
      | false => rfl
      | true =>
        have := Key.before_trans _ _ _ hke he
        rw [Key.before_irrefl] at this
        cases this
    simp [insertEntry, hk, he, ih hrest]

/-- A map is the map of its own entries. -/
theorem ofList_entries (m : SortedMap κ ν) :
  ofList m.entries = m
  := by
  suffices h : ∀ (l : List (κ × ν)) (a : SortedMap κ ν),
      (a.entries ++ l).Pairwise (fun a b => Key.before a.1 b.1 = true) →
      (l.foldl (fun m e => m.insert e.1 e.2) a).entries = a.entries ++ l by
    apply SortedMap.ext
    exact h m.entries empty m.sorted
  intro l
  induction l with
  | nil => simp
  | cons e rest ih =>
    intro a ha
    have hins : (a.insert e.1 e.2).entries = a.entries ++ [e] :=
      insertEntry_eq_append fun b hb => (List.pairwise_append.mp ha).2.2 b hb e (by simp)
    rw [List.foldl_cons, ih, hins]
    · simp
    · rw [hins]
      simpa using ha

end SortedMap

end CardBattle
