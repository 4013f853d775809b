import CardBattle.Json.Codec
import CardBattle.Json.Reader
import CardBattle.SortedMap

/-!
# Maps in JSON

A map whose keys are texts is an object, and so is one whose keys are numbers of 8 bits:
there the names are the numerals of the keys.  A set is the list of its elements.
-/

namespace CardBattle.Json

/-- The number below a bound whose numeral a name is.  A numeral of another number has the
wrong shape, whatever stands behind it in the name; a name that begins with no numeral, or
has more in it than that, is malformed. -/
def Name.readNat (bound : Nat) (name : Name) : Except ReadFault Nat :=
  match readNumeral? name.spelling with
  | none => .error .malformed
  | some (numeral, rest) =>
      match numeral.number? with
      | none => .error .malformed
      | some value =>
          match natBelow? bound (.number value) with
          | none => .error .shape
          | some n => if rest.isEmpty && name.text?.isSome then .ok n else .error .malformed

/-- The text that a name stands for. -/
def Name.readText (name : Name) : Except ReadFault String :=
  match name.text? with
  | some s => .ok s
  | none => .error .malformed

/-- The entries that the fields of an object give, each name read by `readKey`. -/
def Input.readEntries {κ ν : Type} [Codec ν] (input : Input)
    (readKey : Name → Except ReadFault κ) : Except ReadFault (List (κ × ν)) := do
  let m ← input.members
  let entries ← m.entries.mapM fun (name, content) => do
    let k ← readKey name
    return (k, ← decode content)
  if m.isClosed then return entries else .error .malformed

instance {ν : Type} [Codec ν] : Codec (SortedMap UInt8 ν) where
  encode m := .object (m.entries.map fun (k, v) => (toString k.toNat, encode v))
  decode input :=
    (input.readEntries fun name => (name.readNat UInt8.size).map UInt8.ofNat).map SortedMap.ofList

instance {ν : Type} [Codec ν] : Codec (SortedMap String ν) where
  encode m := .object (m.entries.map fun (name, v) => (name, encode v))
  decode input := (input.readEntries Name.readText).map SortedMap.ofList

/-- A set is written in order, and read from any list. -/
instance {κ : Type} [Key κ] [Codec κ] : Codec (SortedSet κ) where
  encode m := encode m.keys
  decode input := (decode input).map fun keys : List κ => .ofList (keys.map fun k => (k, ()))

end CardBattle.Json
