/-!
# Machine words

The numbers of a battle are words of a fixed width: statistics and their changes are
signed words of 32 bits, uids and turns unsigned ones.  A sum, a difference or a
negation whose value is no such word is a `Fault`, which stops the operation that
asked for it; nothing wraps around silently.  Where a rule asks for the word nearest
a value instead, it says so by `Word.nearest`.
-/

namespace CardBattle

/-- The operations that can leave the range of their words. -/
inductive Operation
  | add
  | subtract
  | negate
deriving DecidableEq

/-- What stops an operation for good: the operation has no result, and the battle it
was to change stays as it was. -/
inductive Fault
  /-- The value of an arithmetic operation is not a word. -/
  | overflow (operation : Operation)
  /-- An event is nested deeper than a word can count. -/
  | nestedTooDeep
  /-- A word is to be brought into a range that holds no word. -/
  | emptyRange
  /-- A card is taken from a place that the hand does not have. -/
  | noSuchPlace (cards : Nat) (place : UInt64)
  /-- A unit is put back into a column that its lane does not have. -/
  | noSuchColumn (columns : Nat) (column : UInt64)
deriving DecidableEq

/-- The verb that names the operation in a message. -/
def Operation.verb : Operation → String
  | .add => "add"
  | .subtract => "subtract"
  | .negate => "negate"

/-- The text shown for a fault. -/
def Fault.message : Fault → String
  | .overflow operation => "attempt to " ++ operation.verb ++ " with overflow"
  | .nestedTooDeep => "attempt to add with overflow"
  | .emptyRange => "assertion failed: min <= max"
  | .noSuchPlace cards place =>
      "removal index (is " ++ toString place ++ ") should be < len (is " ++ toString cards
        ++ ")"
  | .noSuchColumn columns column =>
      "index out of bounds: the len is " ++ toString columns ++ " but the index is "
        ++ toString column

namespace Word

/-- The signed word of value `n`; if there is none, the operation that computed `n`
overflows. -/
def exact (operation : Operation) (n : Int) : Except Fault Int32 :=
  if -0x80000000 ≤ n ∧ n < 0x80000000 then .ok (Int32.ofInt n) else .error (.overflow operation)

/-- The exact sum of two signed words. -/
def add (a b : Int32) : Except Fault Int32 :=
  exact .add (a.toInt + b.toInt)

/-- The exact difference of two signed words. -/
def subtract (a b : Int32) : Except Fault Int32 :=
  exact .subtract (a.toInt - b.toInt)

/-- The exact negation of a signed word. -/
def negate (a : Int32) : Except Fault Int32 :=
  exact .negate (-a.toInt)

/-- The unsigned word after `n`. -/
def next (n : UInt32) : Except Fault UInt32 :=
  if n.toNat + 1 < UInt32.size then .ok (n + 1) else .error (.overflow .add)

/-- The signed word nearest `n`. -/
def nearest (n : Int) : Int32 :=
  Int32.ofInt (max (-0x80000000) (min n 0x7fffffff))

/-- The unsigned word nearest `n`. -/
def nearestUnsigned (n : Nat) : UInt32 :=
  UInt32.ofNat (min n (UInt32.size - 1))

/-- The word of the range from `low` to `high` that is nearest `w`; the range must not be
empty. -/
def clamp (low high w : Int32) : Except Fault Int32 :=
  if high < low then .error .emptyRange
  else if w < low then .ok low
  else if high < w then .ok high
  else .ok w

/-- An exact result has exactly the value asked for. -/
theorem exact_eq_ok_iff {operation : Operation} {n : Int} {w : Int32} :
  exact operation n = .ok w ↔ w.toInt = n
  := by
  unfold exact
  constructor
  · intro h
    split at h
    · next hn =>
      obtain rfl := Except.ok.inj h
      exact Int32.toInt_ofInt_of_le hn.1 hn.2
    · cases h
  · rintro rfl
    rw [if_pos ⟨Int32.le_toInt w, Int32.toInt_lt w⟩, Int32.ofInt_toInt]

/-- The nearest word has the value asked for, cut off at the ends of the range. -/
theorem toInt_nearest (n : Int) :
  (nearest n).toInt = max (-0x80000000) (min n 0x7fffffff)
  := by
  apply Int32.toInt_ofInt_of_le <;> omega

theorem toNat_nearestUnsigned (n : Nat) :
  (nearestUnsigned n).toNat = min n (UInt32.size - 1)
  := UInt32.toNat_ofNat_of_lt' (by simp only [UInt32.size]; omega)

/-- Bringing a word into a range that is not empty has a result, which is the word cut off
at the ends of the range. -/
theorem clamp_of_le {low high : Int32} (h : low.toInt ≤ high.toInt) (w : Int32) :
  ∃ v, clamp low high w = .ok v ∧ v.toInt = max low.toInt (min w.toInt high.toInt)
  := by
  simp only [clamp, Int32.lt_iff_toInt_lt]
  rw [if_neg (by omega)]
  split
  · exact ⟨low, rfl, by omega⟩
  · split
    · exact ⟨high, rfl, by omega⟩
    · exact ⟨w, rfl, by omega⟩

end Word

end CardBattle
