import CardBattle.Json.Input

/-!
# Reading the fields of an object

The fields of an object are read one by one and put together by `<*>`.  Whatever the order
in which they are asked for, of several faults the one that comes first in the object is
reported.  A field is faulty at its own place.  An object that is not closed is faulty
behind its last field, and a field that is missing is a fault behind that.
-/

namespace CardBattle.Json

/-- What reading fields of an object comes to: a value, or the fault that comes first with
its place among the fields. -/
inductive Reading (α : Type) where
  | value (a : α)
  | fault (place : Nat) (cause : ReadFault)

namespace Reading

variable {α β : Type}

/-- The value changed by a function. -/
def map (f : α → β) : Reading α → Reading β
  | .value a => .value (f a)
  | .fault place cause => .fault place cause

/-- A function applied to a value; of two faults the earlier one counts, and of two at the
same place that of the function. -/
def apply (f : Reading (α → β)) (a : Reading α) : Reading β :=
  match f, a with
  | .value f, .value a => .value (f a)
  | .value _, .fault place cause => .fault place cause
  | .fault place cause, .value _ => .fault place cause
  | .fault i cause, .fault j cause' => if j < i then .fault j cause' else .fault i cause

instance : Functor Reading where
  map f a := a.map f

instance : Seq Reading where
  seq f a := f.apply (a ())

@[simp]
theorem map_value (f : α → β) (a : α) :
  f <$> Reading.value a = .value (f a)
  := rfl

@[simp]
theorem value_seq_value (f : α → β) (a : α) :
  Reading.value f <*> Reading.value a = .value (f a)
  := rfl

/-- The value, or the cause of the fault. -/
def result : Reading α → Except ReadFault α
  | .value a => .ok a
  | .fault _ cause => .error cause

/-- What a reader makes of the input at a place. -/
def ofResult (place : Nat) : Except ReadFault α → Reading α
  | .ok a => .value a
  | .error cause => .fault place cause

end Reading

namespace Members

variable {α : Type}

/-- The entries that have one of the names, in order, with their places from `place` on. -/
def locate (names : List String) (place : Nat) : List (Name × Input) → List (Nat × Input)
  | [] => []
  | (name, input) :: rest =>
      if name.text?.any (· ∈ names) then (place, input) :: locate names (place + 1) rest
      else locate names (place + 1) rest

/-- The outcome for a field that is missing. -/
def missing (m : Members) : Reading α :=
  .fault (m.entries.length + 1) .shape

/-- The field with one of the names, read by `read`; without such a field the outcome is
`absent`.  Two such fields are a fault at the second. -/
def readAs (m : Members) (names : List String) (read : Input → Except ReadFault α)
    (absent : Reading α) : Reading α :=
  match locate names 0 m.entries with
  | [] => absent
  | [(place, input)] => .ofResult place (read input)
  | (place, input) :: (second, _) :: _ =>
      match read input with
      | .ok _ => .fault second .shape
      | .error cause => .fault place cause

/-- A field that must be there, under one of several names. -/
def requiredAs (m : Members) (names : List String) (read : Input → Except ReadFault α) :
    Reading α :=
  m.readAs names read m.missing

/-- Whether entries from `place` on are well formed and closed. -/
def soundFrom (isClosed : Bool) (place : Nat) : List (Name × Input) → Reading Unit
  | [] => if isClosed then .value () else .fault place .malformed
  | (name, input) :: rest =>
      if name.text?.isSome && input.isSound then soundFrom isClosed (place + 1) rest
      else .fault place .malformed

/-- Whether the fields are well formed and closed. -/
def soundness (m : Members) : Reading Unit :=
  soundFrom m.isClosed 0 m.entries

/-- The fields that entries from `place` on give when each is taken in whole. -/
def wholeFrom (isClosed : Bool) (place : Nat) :
    List (Name × Input) → Reading (List (String × Json))
  | [] => if isClosed then .value [] else .fault place .malformed
  | (name, input) :: rest =>
      match name.text?, input.whole with
      | some s, .ok v => List.cons (s, v) <$> wholeFrom isClosed (place + 1) rest
      | _, _ => .fault place .malformed

/-- The fields, each taken in whole. -/
def whole (m : Members) : Reading (List (String × Json)) :=
  wholeFrom m.isClosed 0 m.entries

end Members

/-- An object, read field by field. -/
def Input.readObject {α : Type} (input : Input) (read : Members → Reading α) :
    Except ReadFault α := do
  let m ← input.parts
  ((fun a _ => a) <$> read m <*> m.soundness).result

end CardBattle.Json
