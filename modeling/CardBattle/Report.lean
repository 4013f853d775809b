import CardBattle.Json.Codec

/-!
# Reports

Running a script is reported by the number of its steps that were run, skipped and ignored
and by the choices that are left to a player.  Reports of one run after another are added
up.
-/

namespace CardBattle

/-- A choice that is left to a player. -/
inductive PendingChoice
  | revealHandCard (player : UInt8) (count : UInt32)
  | returnHandCard (player : UInt8) (count : UInt32)
deriving DecidableEq

/-- What came of running a script. -/
structure Report where
  stepsRun : Nat := 0
  /-- The steps that name a unit which is not there. -/
  stepsSkipped : Nat := 0
  /-- The steps that are not known. -/
  stepsIgnored : Nat := 0
  pending : List PendingChoice := []
deriving DecidableEq

namespace Report

/-- The report of one run after another. -/
def append (r s : Report) : Report :=
  { stepsRun := r.stepsRun + s.stepsRun
    stepsSkipped := r.stepsSkipped + s.stepsSkipped
    stepsIgnored := r.stepsIgnored + s.stepsIgnored
    pending := r.pending ++ s.pending }

instance : Append Report := ⟨append⟩

/-- The report of one step that was run. -/
def ran : Report := { stepsRun := 1 }

/-- The report of one step that was skipped. -/
def skipped : Report := { stepsSkipped := 1 }

/-- The report of one step that was ignored. -/
def ignored : Report := { stepsIgnored := 1 }

/-- The report that a choice is left to a player. -/
def waiting (choice : PendingChoice) : Report := { pending := [choice] }

theorem append_eq (r s : Report) :
  r ++ s = { stepsRun := r.stepsRun + s.stepsRun
             stepsSkipped := r.stepsSkipped + s.stepsSkipped
             stepsIgnored := r.stepsIgnored + s.stepsIgnored
             pending := r.pending ++ s.pending }
  := rfl

theorem append_assoc (r s t : Report) :
  r ++ s ++ t = r ++ (s ++ t)
  := by simp only [append_eq, Nat.add_assoc, List.append_assoc]

theorem append_empty (r : Report) :
  r ++ {} = r
  := by simp only [append_eq, Nat.add_zero, List.append_nil]

theorem empty_append (r : Report) :
  {} ++ r = r
  := by simp only [append_eq, Nat.zero_add, List.nil_append]

/-- A step that is skipped counts for one wherever it comes in a run. -/
theorem append_skipped (r s : Report) :
  r ++ (skipped ++ s) = { r ++ s with stepsSkipped := (r ++ s).stepsSkipped + 1 }
  := by
  simp only [append_eq, skipped, Nat.zero_add, List.nil_append]
  rw [Nat.add_comm 1, Nat.add_assoc]

end Report

open Json (Kinds decode encode readNat)

/-- The kinds of choices that are left to a player. -/
def PendingChoice.kinds : Kinds where
  names := ["REVEAL_HAND_CARD", "RETURN_HAND_CARD_TO_DECK"]

instance : Json.Codec PendingChoice where
  encode
    | .revealHandCard player count =>
        .tagged "op" "REVEAL_HAND_CARD" [("player", encode player), ("count", encode count)]
    | .returnHandCard player count =>
        .tagged "op" "RETURN_HAND_CARD_TO_DECK"
          [("player", encode player), ("count", encode count)]
  decode input := input.readTagged "op" PendingChoice.kinds fun kind fields => match kind with
    | "REVEAL_HAND_CARD" =>
        .revealHandCard <$> fields.required "player" <*> fields.required "count"
    | "RETURN_HAND_CARD_TO_DECK" =>
        .returnHandCard <$> fields.required "player" <*> fields.required "count"
    | _ => fields.missing

/-- The counts of a report are read as numbers of 64 bits. -/
instance : Json.Codec Report where
  encode r := .object [
    ("stepsRun", Json.ofNat r.stepsRun), ("stepsSkipped", Json.ofNat r.stepsSkipped),
    ("stepsIgnored", Json.ofNat r.stepsIgnored), ("deferred", encode r.pending)]
  decode input := input.readObject fun fields => Report.mk
    <$> fields.requiredAs ["stepsRun"] (readNat UInt64.size)
    <*> fields.requiredAs ["stepsSkipped"] (readNat UInt64.size)
    <*> fields.requiredAs ["stepsIgnored"] (readNat UInt64.size)
    <*> fields.required "deferred"

end CardBattle
