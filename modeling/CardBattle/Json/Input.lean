import CardBattle.Json.Written

/-!
# Inputs

A value of a type is read either from a JSON value at hand or from a text, which is read as
far as it goes: a fault of the value that comes earlier in the text than the place where the
text is ill formed is found first.  Both are inputs.  An input is taken apart by `leaf`,
`items` and `members`, or taken in whole by `whole`, which looks at all of it before any
part of it is read.
-/

namespace CardBattle.Json

/-- Why an input cannot be read. -/
inductive ReadFault
  /-- The text is not JSON. -/
  | malformed
  /-- The value has not the shape wanted. -/
  | shape
  /-- The text is no uid. -/
  | notUid (text : String)
deriving DecidableEq

/-- The text shown for an input that cannot be read. -/
def ReadFault.message : ReadFault → String
  | .malformed => "Malformed"
  | .shape => "Data"
  | .notUid text => "invalid unit uid `" ++ text ++ "`"

/-- What is accepted in a value beyond its plain form. -/
structure Leniency where
  /-- A kind may be given by its number instead of its name. -/
  kindsByNumber : Bool := false
  /-- An empty object may stand where no value is wanted. -/
  emptyForNull : Bool := false
deriving DecidableEq

/-- What a value is read from. -/
inductive Input
  | given (leniency : Leniency) (v : Json)
  /-- A text in which `levels` more arrays and objects may be nested. -/
  | written (levels : Nat) (w : Written)

/-- The items of an array, which may not be closed. -/
structure Items where
  rest : List Input
  isClosed : Bool

/-- The fields of an object, which may not be closed. -/
structure Members where
  entries : List (Name × Input)
  isClosed : Bool

/-- The fields of an object at hand. -/
def Members.ofFields (leniency : Leniency) (fields : List (String × Json)) : Members where
  entries := fields.map fun (name, v) => (.plain name, .given leniency v)
  isClosed := true

namespace Input

/-- A value as an input. -/
def ofJson (v : Json) : Input :=
  .given {} v

/-- Whether the input is `null`. -/
def isNull : Input → Bool
  | .given _ .null => true
  | .written _ (.leaf .null) => true
  | _ => false

/-- Whether the input is well formed. -/
def isSound : Input → Bool
  | .given _ _ => true
  | .written _ w => w.isSound

/-- The greatest number of arrays and objects that can be nested in a value that is taken in
whole. -/
def levels : Input → Nat
  | .given _ v => v.depth
  | .written levels _ => levels

/-- The fault of an input that is not of the form wanted. -/
def misfit : Input → ReadFault
  | .written _ .void => .malformed
  | .written _ .broken => .malformed
  | _ => .shape

/-- The fault of an input in which more stands than there should. -/
def surplus : Input → ReadFault
  | .given _ _ => .shape
  | .written _ _ => .malformed

/-- The whole value. -/
def whole : Input → Except ReadFault Json
  | .given _ v => .ok v
  | .written levels w =>
      match w.value? levels with
      | some v => .ok v
      | none => .error .malformed

/-- A value without parts. -/
def leaf : Input → Except ReadFault Json
  | .given _ (.array _) => .error .shape
  | .given _ (.object _) => .error .shape
  | .given _ v => .ok v
  | .written _ (.leaf v) => .ok v
  | input => .error input.misfit

/-- The items of an array. -/
def items : Input → Except ReadFault Items
  | .given leniency (.array vs) => .ok ⟨vs.map (.given leniency), true⟩
  | .written 0 (.array _ _) => .error .malformed
  | .written (levels + 1) (.array ws isClosed) => .ok ⟨ws.map (.written levels), isClosed⟩
  | input => .error input.misfit

/-- The fields of an object. -/
def members : Input → Except ReadFault Members
  | .given leniency (.object fields) => .ok (.ofFields leniency fields)
  | .written 0 (.object _ _) => .error .malformed
  | .written (levels + 1) (.object fields isClosed) =>
      .ok ⟨fields.map fun (name, w) => (name, .written levels w), isClosed⟩
  | input => .error input.misfit

/-- The fields of an object that is read by the names of its fields.  An array is of the
wrong shape, but one that is ill formed where its first item should be is that before. -/
def parts : Input → Except ReadFault Members
  | .written _ (.array (.broken :: _) _) => .error .malformed
  | input => input.members

/-- The absence of a value: `null`, or an empty object where that is accepted. -/
def nothing (input : Input) : Except ReadFault Unit :=
  match input with
  | .given leniency (.object []) => if leniency.emptyForNull then .ok () else .error .shape
  | _ => if input.isNull then .ok () else .error input.misfit

end Input

end CardBattle.Json
