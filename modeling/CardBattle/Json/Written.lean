import CardBattle.Json.Value

/-!
# JSON as it is written

A text that is read as JSON may be ill formed, and what is well formed may still stand for
nothing: a number beyond the range of doubles, or a string with half a pair of surrogates.
A `Written` value keeps what the grammar makes of a text.  Everything in front of the place
where the text ceases to be JSON is there, the arrays and objects around that place are not
closed, and at the place itself stands `broken`.

`Written.value?` is the value that a text stands for, and `Written.isSound` tells whether
the text is well formed at all.
-/

namespace CardBattle.Json

/-- The name of a field. -/
structure Name where
  /-- The text that the name stands for, if there is one. -/
  text? : Option String
  /-- The characters between the quotes as they are written. -/
  spelling : List Char

/-- The name that is spelled as it is. -/
def Name.plain (name : String) : Name where
  text? := some name
  spelling := name.toList

/-- What stands in a JSON text. -/
inductive Written
  /-- A value without parts: `null`, a truth value, a number or a string. -/
  | leaf (v : Json)
  /-- A number or a string that is well formed and stands for nothing. -/
  | void
  | array (items : List Written) (isClosed : Bool)
  /-- The fields up to where no string stands for a name, or up to the end. -/
  | object (fields : List (Name × Written)) (isClosed : Bool)
  /-- Something that is not JSON. -/
  | broken

namespace Written

mutual

/-- Whether a text is well formed. -/
def isSound : Written → Bool
  | .leaf _ => true
  | .void => true
  | .array items isClosed => isClosed && itemsSound items
  | .object fields isClosed => isClosed && fieldsSound fields
  | .broken => false

/-- Whether all the items are well formed. -/
def itemsSound : List Written → Bool
  | [] => true
  | w :: rest => w.isSound && itemsSound rest

/-- Whether all the fields are well formed. -/
def fieldsSound : List (Name × Written) → Bool
  | [] => true
  | (_, w) :: rest => w.isSound && fieldsSound rest

end

mutual

/-- The value that a text stands for, if at most `levels` arrays and objects are nested in
it. -/
def value? : Nat → Written → Option Json
  | _, .leaf v => some v
  | levels + 1, .array items true => (itemValues? levels items).map .array
  | levels + 1, .object fields true => (fieldValues? levels [] fields).map .object
  | _, _ => none

/-- The values that the items of an array stand for. -/
def itemValues? (levels : Nat) : List Written → Option (List Json)
  | [] => some []
  | w :: rest => do
      let v ← w.value? levels
      return v :: (← itemValues? levels rest)

/-- The fields that stand in an object, behind those read before. -/
def fieldValues? (levels : Nat) (read : List (String × Json)) :
    List (Name × Written) → Option (List (String × Json))
  | [] => some read
  | (name, w) :: rest => do
      let s ← name.text?
      let v ← w.value? levels
      fieldValues? levels (addField read s v) rest

end

end Written

end CardBattle.Json
