import CardBattle.Text.CaseTables

/-!
# Lower case

`Text.lower` is the lower-case form of a text: every letter goes to its lower-case form,
`İ` goes to an `i` and a dot above it, and a `Σ` that ends a word goes to `ς`.  Two texts are
compared regardless of the case of their ASCII letters by `Text.sameLetters`.
-/

namespace CardBattle.Text

/-- The run that holds the letter with the given number. -/
def CaseRun.holds (run : CaseRun) (n : Nat) : Bool :=
  run.first ≤ n && n ≤ run.last && (n - run.first) % run.step == 0

/-- The lower-case form of a character, wherever it stands. -/
def lowerChar (c : Char) : List Char :=
  if c.toNat < 0x80 then [c.toLower]
  else if c.toNat = 0x130 then ['i', Char.ofNat 0x307]
  else match caseRuns.find? (fun run => run.holds c.toNat) with
    | some run => [Char.ofNat (run.image + (c.toNat - run.first))]
    | none => [c]

/-- Whether one of the spans holds the number. -/
def inSpans (spans : List (Nat × Nat)) (n : Nat) : Bool :=
  spans.any (fun span => span.1 ≤ n && n ≤ span.2)

/-- Whether the first character that is not passed over has a case. -/
def startsCased (cs : List Char) : Bool :=
  match cs.find? (fun c => !inSpans passedOverSpans c.toNat) with
  | some c => inSpans casedSpans c.toNat
  | none => false

/-- The lower-case form of `rest` behind the characters `behind`, the last of which
comes first. -/
def lowerBehind (behind : List Char) : List Char → List Char
  | [] => []
  | c :: rest =>
      let image :=
        if c = 'Σ' then [if startsCased behind && !startsCased rest then 'ς' else 'σ']
        else lowerChar c
      image ++ lowerBehind (c :: behind) rest

/-- The lower-case form of a text. -/
def lower (s : String) : String :=
  String.ofList (lowerBehind [] s.toList)

/-- Whether two texts are equal but for the case of their ASCII letters. -/
def sameLetters (s t : String) : Bool :=
  s.toList.map Char.toLower == t.toList.map Char.toLower

/-- Whether `part` stands somewhere in a text. -/
def occursIn (part : List Char) : List Char → Bool
  | [] => part.isEmpty
  | c :: rest => part.isPrefixOf (c :: rest) || occursIn part rest

/-- Whether the text `s` contains the text `part`. -/
def contains (s part : String) : Bool :=
  occursIn part.toList s.toList

/-- Whether the text `s` begins with the text `part`. -/
def startsWith (s part : String) : Bool :=
  part.toList.isPrefixOf s.toList

end CardBattle.Text
