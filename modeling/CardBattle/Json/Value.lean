/-!
# JSON values

A JSON value keeps the order of the fields of its objects.  A number without a point and
an exponent is kept as the integer it is, every other number as a double.
-/

namespace CardBattle

/-- A number as a JSON text gives it. -/
inductive Json.Number
  | integer (n : Int)
  | real (x : Float)
deriving DecidableEq

/-- A JSON value. -/
inductive Json
  | null
  | bool (b : Bool)
  | number (n : Json.Number)
  | string (s : String)
  | array (items : List Json)
  | object (fields : List (String × Json))
deriving Inhabited

namespace Json

mutual

/-- How many arrays and objects are nested in a value, itself included. -/
def depth : Json → Nat
  | .array items => itemsDepth items + 1
  | .object fields => fieldsDepth fields + 1
  | _ => 0

/-- The greatest depth among the items of an array. -/
def itemsDepth : List Json → Nat
  | [] => 0
  | v :: rest => max v.depth (itemsDepth rest)

/-- The greatest depth among the fields of an object. -/
def fieldsDepth : List (String × Json) → Nat
  | [] => 0
  | (_, v) :: rest => max v.depth (fieldsDepth rest)

end

/-- The fields with the given one added; a field of the same name gives way to it. -/
def addField (fields : List (String × Json)) (name : String) (v : Json) :
    List (String × Json) :=
  fields.filter (fun f => f.1 ≠ name) ++ [(name, v)]

/-- The field at its place in a list of fields ordered by name. -/
def placeField (f : String × Json) : List (String × Json) → List (String × Json)
  | [] => [f]
  | g :: rest => if g.1 < f.1 then g :: placeField f rest else f :: g :: rest

mutual

/-- The value with the fields of all its objects in the order of their names. -/
def ordered : Json → Json
  | .array items => .array (orderedItems items)
  | .object fields => .object (orderedFields fields)
  | v => v

/-- The items, each with the fields of its objects in the order of their names. -/
def orderedItems : List Json → List Json
  | [] => []
  | v :: rest => v.ordered :: orderedItems rest

/-- The fields in the order of their names, and so are those of the objects in them. -/
def orderedFields : List (String × Json) → List (String × Json)
  | [] => []
  | (name, v) :: rest => placeField (name, v.ordered) (orderedFields rest)

end

/-! ### Equality -/

mutual

/-- Whether two values are the same. -/
def same : Json → Json → Bool
  | .null, .null => true
  | .bool a, .bool b => a = b
  | .number m, .number n => m = n
  | .string s, .string t => s = t
  | .array l, .array m => sameItems l m
  | .object l, .object m => sameFields l m
  | _, _ => false

/-- Whether the items of two arrays are the same. -/
def sameItems : List Json → List Json → Bool
  | [], [] => true
  | v :: l, w :: m => v.same w && sameItems l m
  | _, _ => false

/-- Whether the fields of two objects are the same. -/
def sameFields : List (String × Json) → List (String × Json) → Bool
  | [], [] => true
  | (a, v) :: l, (b, w) :: m => a = b && v.same w && sameFields l m
  | _, _ => false

end

mutual

theorem same_iff (v w : Json) :
  v.same w ↔ v = w
  := by
  cases v <;> cases w <;> simp [same, sameItems_iff, sameFields_iff]

theorem sameItems_iff (l m : List Json) :
  sameItems l m ↔ l = m
  := by
  cases l <;> cases m <;> simp [sameItems, same_iff, sameItems_iff]

theorem sameFields_iff (l m : List (String × Json)) :
  sameFields l m ↔ l = m
  := by
  cases l with
  | nil => cases m <;> simp [sameFields]
  | cons f l =>
    cases m with
    | nil => simp [sameFields]
    | cons g m =>
      obtain ⟨a, v⟩ := f
      obtain ⟨b, w⟩ := g
      simp [sameFields, same_iff v w, sameFields_iff l m]

end

instance : DecidableEq Json := fun v w =>
  decidable_of_iff (v.same w) (same_iff v w)

end Json

end CardBattle
