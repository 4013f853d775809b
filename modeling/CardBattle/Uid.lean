import CardBattle.Json.Codec
import CardBattle.SortedMap
import CardBattle.Text.Blank
import CardBattle.Word

/-!
# Uids

Every unit that enters a battle gets a uid of its own, counted up from one.  A uid is shown
as `u_7` and written as a number; it is read from a number or from a text.
-/

namespace CardBattle

/-- The name of one unit in one battle. -/
structure Uid where
  number : UInt32
deriving DecidableEq

namespace Uid

/-- The text shown for a uid. -/
def text (uid : Uid) : String :=
  "u_" ++ toString uid.number

/-- The characters behind all the marks `u_` at the front. -/
def dropMarks : List Char → List Char
  | 'u' :: '_' :: rest => dropMarks rest
  | cs => cs

/-- The uid that a text names: a number, which may stand behind marks `u_` and between
blanks. -/
def ofText? (s : String) : Option Uid :=
  match Text.natural? (dropMarks (Text.trimList s.toList)) with
  | some n => if n < UInt32.size then some ⟨UInt32.ofNat n⟩ else none
  | none => none

instance : Json.Codec Uid where
  encode uid := Json.encode uid.number
  decode input := do
    match ← input.whole with
    | .string s =>
        match ofText? s with
        | some uid => return uid
        | none => .error (.notUid s)
    | v => (Json.read v).map Uid.mk

end Uid

/-- Counts up the uids of a battle: `next` is the one to be issued next. -/
structure UidCounter where
  next : UInt32 := 1
deriving DecidableEq

namespace UidCounter

/-- The next uid, and the counter after it. -/
def issue (counter : UidCounter) : Except Fault (Uid × UidCounter) := do
  let next ← Word.next counter.next
  return (⟨counter.next⟩, ⟨next⟩)

/-- Whether the uid is one of those issued so far. -/
def hasIssued (counter : UidCounter) (uid : Uid) : Bool :=
  uid.number < counter.next

instance : Json.Codec UidCounter where
  encode counter := .object [("next", Json.encode counter.next)]
  decode input := input.readObject fun fields => UidCounter.mk <$> fields.required "next"

end UidCounter

/-- A use of the active ability of a unit in a slot. -/
structure Usage where
  uid : Uid
  slot : UInt8
deriving DecidableEq

namespace Usage

/-- Uses are ordered by their uids, those of one uid by their slots. -/
def before (a b : Usage) : Bool :=
  decide (a.uid.number.toNat < b.uid.number.toNat
    ∨ a.uid.number.toNat = b.uid.number.toNat ∧ a.slot.toNat < b.slot.toNat)

theorem before_irrefl (a : Usage) :
  a.before a = false
  := by simp [before]

theorem before_trans {a b c : Usage} (h : a.before b = true) (h' : b.before c = true) :
  a.before c = true
  := by
  simp only [before, decide_eq_true_eq] at *
  omega

theorem eq_of_not_before {a b : Usage} (h : a.before b = false) (h' : b.before a = false) :
  a = b
  := by
  obtain ⟨⟨n⟩, s⟩ := a
  obtain ⟨⟨m⟩, t⟩ := b
  simp only [before, decide_eq_false_iff_not] at *
  obtain rfl : n = m := UInt32.toNat_inj.mp (by omega)
  obtain rfl : s = t := UInt8.toNat_inj.mp (by omega)
  rfl

end Usage

instance : Key Usage where
  before := Usage.before
  before_irrefl := Usage.before_irrefl
  before_trans _ _ _ := Usage.before_trans
  before_total _ _ := Usage.eq_of_not_before

/-- A use is written as the pair of its uid and its slot. -/
instance : Json.Codec Usage where
  encode usage := .array [Json.encode usage.uid, Json.encode usage.slot]
  decode input := input.readItems do
    return ⟨← Json.nextItem, ← Json.nextItem⟩

end CardBattle
