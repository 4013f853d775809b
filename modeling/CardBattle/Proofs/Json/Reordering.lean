import CardBattle.Json.Codec
import Mathlib.Data.List.Forall2
import Mathlib.Data.List.Perm.Basic

/-!
# Values with their fields in another order

The order of the fields of an object does not matter for what the object says.  A value
reorders another if it differs from it in nothing but the order of the fields of objects, at
any nesting (`Json.Reorders`).  The value whose fields are in the order of their names is one
of them (`reorders_ordered`).  What stands in an object under a name that occurs there once is
found in every reordering of it (`FieldsReorder.under_one`).
-/

namespace CardBattle.Json

mutual

/-- The second value differs from the first one in nothing but the order of the fields of
objects. -/
inductive Reorders : Json → Json → Prop
  | refl (v : Json) : Reorders v v
  | array {items items' : List Json} (h : List.Forall₂ Reorders items items') :
      Reorders (.array items) (.array items')
  | object {fields between fields' : List (String × Json)}
      (h : List.Forall₂ FieldReorders fields between) (hperm : between.Perm fields') :
      Reorders (.object fields) (.object fields')

/-- The fields have one name, and the value of the second one reorders that of the first. -/
inductive FieldReorders : String × Json → String × Json → Prop
  | intro (name : String) {v v' : Json} (h : Reorders v v') : FieldReorders (name, v) (name, v')

end

/-- The fields of objects of which the second one reorders the first. -/
def FieldsReorder (fields fields' : Fields) : Prop :=
  ∃ between, List.Forall₂ FieldReorders fields between ∧ between.Perm fields'

/-- The values that stand under one of the names. -/
def under (names : List String) (fields : Fields) : List Json :=
  (fields.filter fun f => f.1 ∈ names).map (·.2)

variable {v v' : Json} {items items' : List Json} {names : List String}
  {fields between fields' : Fields}

theorem forall₂_reorders_refl (items : List Json) :
  List.Forall₂ Reorders items items
  := List.forall₂_same.mpr fun v _ => .refl v

theorem FieldsReorder.refl (fields : Fields) :
  FieldsReorder fields fields
  := ⟨fields, List.forall₂_same.mpr fun f _ => .intro f.1 (.refl f.2), .refl fields⟩

theorem reorders_array (h : Reorders (.array items) v) :
  ∃ items', v = .array items' ∧ List.Forall₂ Reorders items items'
  := by
  cases h with
  | refl => exact ⟨items, rfl, forall₂_reorders_refl items⟩
  | array h => exact ⟨_, rfl, h⟩

theorem reorders_object (h : Reorders (.object fields) v) :
  ∃ fields', v = .object fields' ∧ FieldsReorder fields fields'
  := by
  cases h with
  | refl => exact ⟨fields, rfl, .refl fields⟩
  | object h hperm => exact ⟨_, rfl, _, h, hperm⟩

theorem Reorders.isNull_eq (h : Reorders v v') (leniency leniency' : Leniency) :
  (Input.given leniency' v').isNull = (Input.given leniency v).isNull
  := by
  cases h with
  | refl => cases v <;> rfl
  | array => rfl
  | object => rfl

/-! ### Fields under names -/

@[simp]
theorem under_nil (names : List String) :
  under names [] = []
  := rfl

@[simp]
theorem under_cons (names : List String) (name : String) (v : Json) (fields : Fields) :
  under names ((name, v) :: fields)
    = if name ∈ names then v :: under names fields else under names fields
  := by
  rw [under, List.filter_cons]
  by_cases h : name ∈ names
  · simp [h, under]
  · simp [h, under]

@[simp]
theorem under_append (names : List String) (fields fields' : Fields) :
  under names (fields ++ fields') = under names fields ++ under names fields'
  := by simp [under]

@[simp]
theorem under_ofOption {α : Type} [Codec α] (names : List String) (name : String)
    (o : Option α) :
  under names (Fields.ofOption name o) = if name ∈ names then (o.map encode).toList else []
  := by
  cases o with
  | none => simp [Fields.ofOption]
  | some a => simp [Fields.ofOption]

theorem forall₂_under (h : List.Forall₂ FieldReorders fields between) (names : List String) :
  List.Forall₂ Reorders (under names fields) (under names between)
  := by
  induction h with
  | nil => exact .nil
  | cons hfield _ ih =>
    obtain ⟨name, hvalue⟩ := hfield
    rw [under_cons, under_cons]
    split
    · exact .cons hvalue ih
    · exact ih

/-- What stands under none of the names stands under none of them in another order. -/
theorem FieldsReorder.under_none (h : FieldsReorder fields fields')
    (hnone : under names fields = []) :
  under names fields' = []
  := by
  obtain ⟨between, hfields, hperm⟩ := h
  have hunder := forall₂_under hfields names
  rw [hnone, List.forall₂_nil_left_iff] at hunder
  apply List.nil_perm.mp
  rw [← hunder]
  exact (hperm.filter _).map _

/-- The only value under some names is the only one in another order too. -/
theorem FieldsReorder.under_one (h : FieldsReorder fields fields')
    (hone : under names fields = [v]) :
  ∃ v', under names fields' = [v'] ∧ v.Reorders v'
  := by
  obtain ⟨between, hfields, hperm⟩ := h
  have hunder := forall₂_under hfields names
  rw [hone, List.forall₂_cons_left_iff] at hunder
  obtain ⟨v', rest, hv', hrest, hbetween⟩ := hunder
  obtain rfl := List.forall₂_nil_left_iff.mp hrest
  refine ⟨v', ?_, hv'⟩
  apply List.perm_singleton.mp
  rw [← hbetween]
  exact (hperm.symm.filter _).map _

/-- A single field stays the only one. -/
theorem FieldsReorder.singleton {name : String} (h : FieldsReorder [(name, v)] fields') :
  ∃ v', fields' = [(name, v')] ∧ v.Reorders v'
  := by
  obtain ⟨between, hfields, hperm⟩ := h
  obtain ⟨f, rest, ⟨_, hvalue⟩, hrest, rfl⟩ := List.forall₂_cons_left_iff.mp hfields
  obtain rfl := List.forall₂_nil_left_iff.mp hrest
  exact ⟨_, (List.singleton_perm.mp hperm).symm, hvalue⟩

theorem FieldsReorder.length_eq (h : FieldsReorder fields fields') :
  fields'.length = fields.length
  := by
  obtain ⟨between, hfields, hperm⟩ := h
  rw [hfields.length_eq, hperm.length_eq]

/-! ### The order of names -/

theorem placeField_perm (f : String × Json) (fields : Fields) :
  (placeField f fields).Perm (f :: fields)
  := by
  induction fields with
  | nil => rfl
  | cons g rest ih =>
    rw [placeField]
    split
    · exact (ih.cons g).trans (.swap f g rest)
    · rfl

mutual

/-- A value is reordered when its fields are put in the order of their names. -/
theorem reorders_ordered (v : Json) :
  v.Reorders v.ordered
  := by
  cases v with
  | array items => exact .array (forall₂_orderedItems items)
  | object fields =>
    obtain ⟨between, hfields, hperm⟩ := fieldsReorder_orderedFields fields
    exact .object hfields hperm
  | _ => exact .refl _

theorem forall₂_orderedItems (items : List Json) :
  List.Forall₂ Reorders items (orderedItems items)
  := by
  cases items with
  | nil => exact .nil
  | cons v rest => exact .cons (reorders_ordered v) (forall₂_orderedItems rest)

theorem fieldsReorder_orderedFields (fields : Fields) :
  FieldsReorder fields (orderedFields fields)
  := by
  cases fields with
  | nil => exact .refl []
  | cons f rest =>
    obtain ⟨between, hfields, hperm⟩ := fieldsReorder_orderedFields rest
    refine ⟨(f.1, f.2.ordered) :: between, .cons (.intro f.1 (reorders_ordered f.2)) hfields, ?_⟩
    exact (hperm.cons _).trans (placeField_perm _ _).symm

end

/-! ### Depth -/

theorem fieldsDepth_perm (h : fields.Perm fields') :
  fieldsDepth fields' = fieldsDepth fields
  := by
  induction h with
  | nil => rfl
  | cons f _ ih => rw [fieldsDepth, fieldsDepth, ih]
  | swap f g rest =>
    simp only [fieldsDepth]
    omega
  | trans _ _ ih ih' => rw [ih', ih]

mutual

/-- A value is nested as deep in another order. -/
theorem Reorders.depth_eq {v v' : Json} (h : v.Reorders v') :
  v'.depth = v.depth
  := by
  cases v with
  | array items =>
    obtain ⟨items', rfl, hitems⟩ := reorders_array h
    rw [depth, depth, itemsDepth_eq hitems]
  | object fields =>
    obtain ⟨fields', rfl, between, hfields, hperm⟩ := reorders_object h
    rw [depth, depth, fieldsDepth_perm hperm, fieldsDepth_eq hfields]
  | _ =>
    cases h
    rfl

theorem itemsDepth_eq {items items' : List Json} (h : List.Forall₂ Reorders items items') :
  itemsDepth items' = itemsDepth items
  := by
  cases items with
  | nil =>
    cases h
    rfl
  | cons v rest =>
    obtain ⟨v', rest', hv, hrest, rfl⟩ := List.forall₂_cons_left_iff.mp h
    rw [itemsDepth, itemsDepth, hv.depth_eq, itemsDepth_eq hrest]

theorem fieldsDepth_eq {fields between : Fields}
    (h : List.Forall₂ FieldReorders fields between) :
  fieldsDepth between = fieldsDepth fields
  := by
  cases fields with
  | nil =>
    cases h
    rfl
  | cons f rest =>
    obtain ⟨g, rest', hfield, hrest, rfl⟩ := List.forall₂_cons_left_iff.mp h
    obtain ⟨name, hv⟩ := hfield
    rw [fieldsDepth, fieldsDepth, hv.depth_eq, fieldsDepth_eq hrest]

end

end CardBattle.Json
