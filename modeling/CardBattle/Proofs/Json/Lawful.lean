import CardBattle.Json.Maps
import CardBattle.Proofs.Json.Restoration
import CardBattle.Proofs.SortedMap.Order

/-!
# Lawful codecs

The codecs of simple types restore all their values, a double if it is finite.  Lists, values
that may be absent, maps and sets are restored when what is in them is.  The fields of a map can
be read in any order, since a map has its entries in the order of its keys.
-/

namespace CardBattle.Json

open List (Forall₂)

/-! ### Simple types -/

instance : LawfulCodec Bool where
  restored _ := readsAs_leaf rfl rfl

instance : LawfulCodec String where
  restored _ := readsAs_leaf rfl rfl

instance : NeverNull String where
  encode_ne_null _ h := by cases h

theorem readsAs_nat {n bound : Nat} (h : n < bound) :
  ReadsAs (readNat bound) (ofNat n) n
  := by
  apply readsAs_leaf rfl
  rw [ofNat, natBelow?, if_pos ⟨Int.natCast_nonneg n, h⟩]
  rfl

instance : LawfulCodec UInt8 where
  restored n := by
    have hread := (readsAs_nat n.toNat_lt).map (f := UInt8.ofNat)
    rwa [UInt8.ofNat_toNat] at hread

instance : NeverNull UInt8 where
  encode_ne_null _ h := by cases h

instance : LawfulCodec UInt32 where
  restored n := by
    have hread := (readsAs_nat n.toNat_lt).map (f := UInt32.ofNat)
    rwa [UInt32.ofNat_toNat] at hread

instance : NeverNull UInt32 where
  encode_ne_null _ h := by cases h

instance : LawfulCodec UInt64 where
  restored n := by
    have hread := (readsAs_nat n.toNat_lt).map (f := UInt64.ofNat)
    rwa [UInt64.ofNat_toNat] at hread

instance : LawfulCodec Int32 where
  restored n := by
    apply readsAs_leaf rfl
    have hlow := n.le_toInt
    have hhigh := n.toInt_lt
    change (if -0x80000000 ≤ n.toInt ∧ n.toInt < 0x80000000 then _ else _) = _
    rw [if_pos (by omega), Int32.ofInt_toInt]

/-- A double is restored if it is finite. -/
theorem restored_float {x : Float} (h : x.isFinite) :
  Restored x
  := by
  have hencode : encode x = .number (.real x) := if_pos h
  rw [Restored, hencode]
  exact readsAs_leaf rfl rfl

instance {α : Type} [Codec α] [LawfulCodec α] : LawfulCodec (List α) where
  restored _ := restored_list fun a _ => restored a

instance {α : Type} [Codec α] [LawfulCodec α] [NeverNull α] : LawfulCodec (Option α) where
  restored _ := restored_option fun a _ => restored a

/-! ### Maps and sets -/

section

variable {κ ν : Type} [Codec ν]

/-- What a reader makes of the items of a list it makes of them in any order. -/
theorem mapM_perm {α β ε : Type} {f : α → Except ε β} {l l' : List α} (h : l.Perm l')
    {r : List β} (hr : l.mapM f = .ok r) :
  ∃ r', l'.mapM f = .ok r' ∧ r'.Perm r
  := by
  induction h generalizing r with
  | nil => exact ⟨r, hr, .refl r⟩
  | cons a _ ih =>
    rw [List.mapM_cons] at hr
    obtain ⟨b, hb, hr⟩ := bind_eq_ok.mp hr
    obtain ⟨s, hs, hr⟩ := bind_eq_ok.mp hr
    obtain rfl := pure_eq_ok.mp hr
    obtain ⟨s', hs', hperm⟩ := ih hs
    refine ⟨b :: s', ?_, hperm.cons b⟩
    rw [List.mapM_cons, hb, hs']
    rfl
  | swap a b l =>
    rw [List.mapM_cons, List.mapM_cons] at hr
    obtain ⟨d, hd, hr⟩ := bind_eq_ok.mp hr
    obtain ⟨s, hs, hr⟩ := bind_eq_ok.mp hr
    obtain ⟨c, hc, hs⟩ := bind_eq_ok.mp hs
    obtain ⟨t, ht, hs⟩ := bind_eq_ok.mp hs
    obtain rfl := pure_eq_ok.mp hs
    obtain rfl := pure_eq_ok.mp hr
    refine ⟨c :: d :: t, ?_, .swap d c t⟩
    rw [List.mapM_cons, List.mapM_cons, hc, hd, ht]
    rfl
  | trans _ _ ih ih' =>
    obtain ⟨r', hr', hperm⟩ := ih hr
    obtain ⟨r'', hr'', hperm'⟩ := ih' hr'
    exact ⟨r'', hr'', hperm'.trans hperm⟩

/-- Entries are read in order from the fields they are written as. -/
theorem mapM_entries_ok {write : κ → String} {readKey : Name → Except ReadFault κ}
    (hkey : ∀ k, readKey (.plain (write k)) = .ok k) {entries : List (κ × ν)}
    (hentries : ∀ e ∈ entries, Restored e.2) {fields : Fields}
    (h : Forall₂ FieldReorders (entries.map fun e => (write e.1, encode e.2)) fields)
    (leniency : Leniency) :
  (Members.ofFields leniency fields).entries.mapM (fun (name, content) => do
    let k ← readKey name
    return (k, ← decode content)) = .ok entries
  := by
  induction entries generalizing fields with
  | nil =>
    cases h
    rfl
  | cons e rest ih =>
    obtain ⟨he, hrest⟩ := List.forall_mem_cons.mp hentries
    obtain ⟨g, fields', ⟨_, hvalue⟩, hfields', rfl⟩ := List.forall₂_cons_left_iff.mp h
    have hstep := ih hrest hfields'
    dsimp only [Members.ofFields] at hstep
    simp only [Members.ofFields, List.map_cons, List.mapM_cons, hkey, he leniency _ hvalue, hstep]
    rfl

/-- A map is read from the object that it is written as.  The fields may give its entries in
another order. -/
theorem readsAs_map [Key κ] (write : κ → String) (readKey : Name → Except ReadFault κ)
    (hkey : ∀ k, readKey (.plain (write k)) = .ok k) {m : SortedMap κ ν}
    (h : ∀ e ∈ m.entries, Restored e.2) :
  ReadsAs (fun input => (input.readEntries readKey).map SortedMap.ofList)
    (.object (m.entries.map fun e => (write e.1, encode e.2))) m
  := by
  intro leniency v hv
  obtain ⟨fields, rfl, between, hfields, hperm⟩ := reorders_object hv
  have hbetween := mapM_entries_ok hkey h hfields leniency
  obtain ⟨entries, hentries, hsame⟩ := mapM_perm (hperm.map _) hbetween
  simp only [bind, Except.bind] at hentries
  simp only [Input.readEntries, Input.members, Members.ofFields, bind, Except.bind, hentries]
  exact congrArg Except.ok (SortedMap.ofList_perm hsame)

/-- The numeral of a word of 8 bits is read as that word. -/
theorem readNumeral_ok (k : UInt8) :
  ((Name.plain (toString k.toNat)).readNat UInt8.size).map UInt8.ofNat = .ok k
  := by
  have hnumeral : ∀ n < UInt8.size, (Name.plain (toString n)).readNat UInt8.size = .ok n := by
    decide +kernel
  rw [hnumeral k.toNat k.toNat_lt]
  exact congrArg Except.ok UInt8.ofNat_toNat

instance [LawfulCodec ν] : LawfulCodec (SortedMap UInt8 ν) where
  restored _ := readsAs_map _
    (fun name => (name.readNat UInt8.size).map UInt8.ofNat) readNumeral_ok fun e _ => restored e.2

instance [LawfulCodec ν] : LawfulCodec (SortedMap String ν) where
  restored _ := readsAs_map id Name.readText (fun _ => rfl) fun e _ => restored e.2

end

instance {κ : Type} [Key κ] [Codec κ] [LawfulCodec κ] : LawfulCodec (SortedSet κ) where
  restored m := by
    have hread := (restored m.keys).map (f := fun keys =>
      (SortedMap.ofList (keys.map fun k => (k, ())) : SortedSet κ))
    have hentries : m.keys.map (fun k => (k, ())) = m.entries := by
      rw [SortedMap.keys, List.map_map]
      exact List.map_id m.entries
    rw [hentries, SortedMap.ofList_entries] at hread
    exact hread

end CardBattle.Json
