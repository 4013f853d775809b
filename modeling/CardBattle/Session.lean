import CardBattle.Action.Legal
import CardBattle.Action.Resolution
import CardBattle.Json.Text

/-!
# Sessions

A session is a battle in play together with the battles before its last actions, the latest
first, to which they can be undone.  Only so many are kept as the settings say.
-/

namespace CardBattle

open Json (ReadFault decode)

/-- A battle in play. -/
structure Session where
  rules : Ruleset
  battle : Battle
  /-- The battles before the last actions, the latest first. -/
  history : List Battle := []

/-- Why a session refuses what it is asked for. -/
inductive SessionError
  | text (fault : ReadFault)
  | stopped (stop : Stop)
  | nothingToUndo
deriving DecidableEq

/-- The text shown for a refusal. -/
def SessionError.message : SessionError → String
  | .text fault => fault.message
  | .stopped stop => stop.message
  | .nothingToUndo => "nothing to undo"

namespace Session

/-- A session that begins with an empty battle. -/
def start (rules : Ruleset) (seed : UInt64) : Session :=
  { rules, battle := .start seed }

/-- A session whose players have been dealt hands from the catalog. -/
def playtest (rules : Ruleset) (seed : UInt64) : Session :=
  { rules
    battle := (Battle.start seed).deal rules.catalog rules.settings.playtestHandSize.toNat }

/-- A session that begins with a battle, which must not be corrupt. -/
def ofBattle (rules : Ruleset) (b : Battle) : Except SessionError Session :=
  match b.corruption? with
  | none => .ok { rules, battle := b }
  | some corruption => .error (.stopped (.rejected (.corrupt corruption)))

/-- The history with one more battle, less the oldest if that makes too many. -/
def remember (depth : Nat) (b : Battle) (history : List Battle) : List Battle :=
  let longer := b :: history
  if depth < longer.length then longer.dropLast else longer

/-- The session after an action, and what came of the action. -/
def apply (s : Session) (action : Action) : Except SessionError (Resolution × Session) :=
  match s.rules.resolve s.battle action with
  | .error stop => .error (.stopped stop)
  | .ok resolution =>
      let history := remember s.rules.settings.undoDepth.toNat s.battle s.history
      .ok (resolution, { s with battle := resolution.battle, history })

/-- The session after an action given as a text, and what came of the action. -/
def applyText (s : Session) (text : String) : Except SessionError (Resolution × Session) :=
  match Json.readText decode text with
  | .error fault => .error (.text fault)
  | .ok action => s.apply action

/-- The actions that the active player can take. -/
def legalActions (s : Session) : List Action :=
  s.rules.legalActions s.battle

/-- Whether an action can be undone. -/
def canUndo (s : Session) : Bool :=
  !s.history.isEmpty

/-- The session before its last action. -/
def undo (s : Session) : Except SessionError Session :=
  match s.history with
  | [] => .error .nothingToUndo
  | b :: history => .ok { s with battle := b, history }

/-- The session with another battle, which must not be corrupt; nothing can be undone
then. -/
def replace (s : Session) (b : Battle) : Except SessionError Session :=
  match b.corruption? with
  | none => .ok { s with battle := b, history := [] }
  | some corruption => .error (.stopped (.rejected (.corrupt corruption)))

/-- The last lines of the log, as many as the settings say. -/
def logTail (s : Session) : List String :=
  s.battle.logTail s.rules.settings.logTail.toNat

end Session

end CardBattle
