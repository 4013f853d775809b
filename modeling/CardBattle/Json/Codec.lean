import CardBattle.Json.Reading

/-!
# Codecs

A type with a codec is written as a JSON value and read back from one, or from a text.  A
reader is lenient about what it does not know: fields of other names are passed over.  It is
strict about the rest.

The readers of the common forms stand here: objects of several kinds, arrays of any and of a
fixed length, and values that are written as names.  The fields of an object are put
together by `<*>`, as in `mk <$> fields.required "name" <*> fields.optional "meta"`.
-/

namespace CardBattle.Json

/-- A type whose values are written as JSON values and read from inputs. -/
class Codec (α : Type) where
  encode : α → Json
  decode : Input → Except ReadFault α

export Codec (encode decode)

/-- The value of a type that a JSON value gives. -/
def read {α : Type} [Codec α] (v : Json) : Except ReadFault α :=
  decode (Input.ofJson v)

/-! ### Fields -/

/-- The fields of an object to be written. -/
abbrev Fields := List (String × Json)

/-- The field for a value that may be absent: none at all for an absent one. -/
def Fields.ofOption {α : Type} [Codec α] (name : String) : Option α → Fields
  | some a => [(name, encode a)]
  | none => []

/-- A value that may be absent; `null` stands for its absence. -/
def orNull {α : Type} (read : Input → Except ReadFault α) (input : Input) :
    Except ReadFault (Option α) :=
  if input.isNull then .ok none else (read input).map some

namespace Members

variable {α : Type} [Codec α]

/-- A field that must be there, under its only name. -/
def required (m : Members) (name : String) : Reading α :=
  m.requiredAs [name] decode

/-- A field that stands for a default if it is absent. -/
def defaulted (m : Members) (name : String) (default : α) : Reading α :=
  m.readAs [name] decode (.value default)

/-- A field that may be absent, under one of several names. -/
def optionalAs (m : Members) (names : List String) : Reading (Option α) :=
  m.readAs names (orNull decode) (.value none)

/-- A field that may be absent. -/
def optional (m : Members) (name : String) : Reading (Option α) :=
  m.optionalAs [name]

end Members

/-! ### Objects of several kinds -/

/-- The kinds of which an object can be, in order. -/
structure Kinds where
  names : List String
  /-- The kind of an object whose kind is none of these. -/
  other? : Option String := none

namespace Kinds

/-- The kind of a name. -/
def ofName? (kinds : Kinds) (name : String) : Option String :=
  if name ∈ kinds.names then some name else kinds.other?

/-- The kind with a number. -/
def ofNumber? (kinds : Kinds) (n : Int) : Option String :=
  if n < 0 then none else kinds.names[n.toNat]? <|> kinds.other?

/-- The kind that an input names, or gives by its number where that is accepted. -/
def read (kinds : Kinds) (input : Input) : Except ReadFault String := do
  let byNumber := match input with
    | .given leniency _ => leniency.kindsByNumber
    | .written _ _ => false
  let kind? := match ← input.leaf with
    | .string name => kinds.ofName? name
    | .number (.integer n) => if byNumber then kinds.ofNumber? n else none
    | _ => none
  match kind? with
  | some kind => return kind
  | none => .error .shape

end Kinds

/-- The object of a kind, which its first field `tag` names, with the given fields. -/
def tagged (tag kind : String) (fields : Fields) : Json :=
  .object ((tag, .string kind) :: fields)

/-- What is accepted inside an object of one of several kinds. -/
def Leniency.ofKind : Leniency := { kindsByNumber := true, emptyForNull := true }

/-- An object of one of several kinds, whose field `tag` names the kind.  Its other fields
are read when all of it has been taken in. -/
def Input.readTagged {α : Type} (input : Input) (tag : String) (kinds : Kinds)
    (read : String → Members → Reading α) : Except ReadFault α := do
  let m ← input.parts
  let kind := m.requiredAs [tag] kinds.read
  let (kind, fields) ← (Prod.mk <$> kind <*> m.whole).result
  (read kind (.ofFields .ofKind fields)).result

/-! ### Arrays -/

/-- An array, read item by item. -/
def readArray {α : Type} (read : Input → Except ReadFault α) (input : Input) :
    Except ReadFault (List α) := do
  let items ← input.items
  let l ← items.rest.mapM read
  if items.isClosed then return l else .error .malformed

/-- Reads items of an array, the first ones first. -/
abbrev ItemReader := StateT Items (Except ReadFault)

/-- The next item of an array; `absent` if there is none. -/
def nextItemOr {α : Type} (read : Input → Except ReadFault α)
    (absent : Except ReadFault α) : ItemReader α := fun items =>
  match items.rest with
  | input :: rest => do return (← read input, { items with rest })
  | [] => if items.isClosed then return (← absent, items) else .error .malformed

/-- The next item of an array, which must be there. -/
def nextItem {α : Type} [Codec α] : ItemReader α :=
  nextItemOr decode (.error .shape)

/-- An array that is exactly as long as it is read. -/
def Input.readItems {α : Type} (input : Input) (read : ItemReader α) :
    Except ReadFault α := do
  let (a, left) ← read (← input.items)
  if left.rest.isEmpty && left.isClosed then return a else .error input.surplus

/-! ### Names -/

/-- What a name stands for. -/
inductive Meaning (α : Type) where
  | value (a : α)
  /-- A value made of what stands with the name. -/
  | holding (read : Input → Except ReadFault α)

/-- The value for a name, with which `input` stands. -/
def readNamed {α : Type} (meaning? : String → Option (Meaning α)) (name : Name)
    (input : Input) : Except ReadFault α :=
  match name.text? with
  | none => .error .malformed
  | some name =>
      match meaning? name with
      | some (.value a) => do
          input.nothing
          return a
      | some (.holding read) => read input
      | none => .error .shape

/-- A value that is given by a name: by the name itself, or as the only field of an object,
in which something may stand with the name. -/
def Input.readName {α : Type} (input : Input) (meaning? : String → Option (Meaning α)) :
    Except ReadFault α :=
  match input.leaf, input.members with
  | .ok (.string name), _ =>
      match meaning? name with
      | some (.value a) => .ok a
      | _ => .error .shape
  | _, .ok ⟨(name, content) :: rest, isClosed⟩ => do
      let a ← readNamed meaning? name content
      if rest.isEmpty && isClosed then return a else .error input.surplus
  | _, _ => .error input.surplus

/-- The codec of a type whose values are written as names. -/
@[reducible]
def Codec.ofNames {α : Type} (name : α → String) (ofName? : String → Option α) : Codec α where
  encode a := .string (name a)
  decode input := input.readName fun name => (ofName? name).map Meaning.value

/-! ### Codecs of simple types -/

/-- A value without parts that `read?` accepts. -/
def readLeaf {α : Type} (read? : Json → Option α) (input : Input) : Except ReadFault α := do
  match read? (← input.leaf) with
  | some a => return a
  | none => .error .shape

instance : Codec Bool where
  encode := .bool
  decode := readLeaf fun
    | .bool b => some b
    | _ => none

instance : Codec String where
  encode := .string
  decode := readLeaf fun
    | .string s => some s
    | _ => none

instance : Codec Json where
  encode v := v
  decode := Input.whole

/-- The natural number below a bound that a value is. -/
def natBelow? (bound : Nat) : Json → Option Nat
  | .number (.integer n) => if 0 ≤ n ∧ n.toNat < bound then some n.toNat else none
  | _ => none

/-- A natural number below a bound. -/
def readNat (bound : Nat) : Input → Except ReadFault Nat :=
  readLeaf (natBelow? bound)

/-- The JSON value of a natural number. -/
def ofNat (n : Nat) : Json := .number (.integer n)

instance : Codec UInt8 where
  encode n := ofNat n.toNat
  decode input := (readNat UInt8.size input).map UInt8.ofNat

instance : Codec UInt32 where
  encode n := ofNat n.toNat
  decode input := (readNat UInt32.size input).map UInt32.ofNat

instance : Codec UInt64 where
  encode n := ofNat n.toNat
  decode input := (readNat UInt64.size input).map UInt64.ofNat

instance : Codec Int32 where
  encode n := .number (.integer n.toInt)
  decode := readLeaf fun
    | .number (.integer n) =>
        if -0x80000000 ≤ n ∧ n < 0x80000000 then some (Int32.ofInt n) else none
    | _ => none

/-- An infinity and what is no number are written as `null`. -/
instance : Codec Float where
  encode x := if x.isFinite then .number (.real x) else .null
  decode := readLeaf fun
    | .number (.integer n) => some (Float.ofInt n)
    | .number (.real x) => some x
    | _ => none

instance {α : Type} [Codec α] : Codec (List α) where
  encode l := .array (l.map encode)
  decode := readArray decode

instance {α : Type} [Codec α] : Codec (Option α) where
  encode
    | some a => encode a
    | none => .null
  decode := orNull decode

end CardBattle.Json
