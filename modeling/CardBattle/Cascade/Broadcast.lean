import CardBattle.Cascade.Script

/-!
# Broadcasting events

An event is broadcast to the units in scan order.  The order is fixed before the first unit
answers, and a unit that has left its board by its turn does not answer any more, except
that a unit just eliminated answers to its own elimination.  A unit answers by running the
rule blocks of its card for the trigger of the event.

The scripts of the answers can eliminate units, and so cause events nested in the first.
Events nested too deep are dropped: `emitWithin n` broadcasts events nested at most `n`
deep, and `emit` allows for as many as the settings do.
-/

namespace CardBattle

section

variable (rules : Ruleset) (emit : Event → Change)

/-- The rule blocks of a card for a trigger; a card that is not in the catalog has none. -/
def Ruleset.blocksOf (rules : Ruleset) (cardId : String) (trigger : Trigger) :
    List RuleBlock :=
  match rules.catalog.find? cardId with
  | some card => card.blocksFor trigger
  | none => []

/-- The unit of the given uid, or else the departed one, runs a rule block. -/
def runBlock (event : Event) (uid : Uid) (departed : Option BoardUnit) (block : RuleBlock) :
    Change := fun b =>
  match b.find? uid <|> departed with
  | none => Change.done b
  | some actor =>
      if block.applies rules b actor event then runScript rules emit actor event block.script b
      else Change.done b

/-- A unit answers to an event. -/
def respond (event : Event) (uid : Uid) : Change := fun b =>
  match b.find? uid with
  | some u =>
      if event.concerns u then
        Change.forEach (runBlock rules emit event uid none)
          (rules.blocksOf u.cardId event.trigger) b
      else Change.done b
  | none =>
      match event.departed?.filter (fun gone => gone.uid = uid) with
      | some gone =>
          Change.forEach (runBlock rules emit event uid (some gone))
            (rules.blocksOf gone.cardId event.trigger) b
      | none => Change.done b

/-- All units answer to an event in scan order. -/
def broadcast (event : Event) : Change := fun b =>
  Change.forEach (respond rules emit event) (event.recipients b) b

end

namespace Ruleset

variable (rules : Ruleset)

/-- Broadcasts an event unless `n` is zero; the events it causes are broadcast within
`n - 1`. -/
def emitWithin : Nat → Event → Change
  | 0, _ => Change.done
  | n + 1, event => broadcast rules (emitWithin n) event

/-- Broadcasts an event unless it is nested too deep. -/
def emit (event : Event) : Change :=
  rules.emitWithin (rules.settings.maxTriggerDepth.toNat + 1 - event.depth.toNat) event

/-- All units without vitality leave the boards. -/
def sweep (source : Option Uid) (depth : UInt32) : Change :=
  sweepWith rules.emit source depth

/-- A unit runs a script on an event. -/
def run (actor : BoardUnit) (event : Event) (script : List Step) : Change :=
  runScript rules rules.emit actor event script

/-- A unit runs the rule blocks of an ability for its activation. -/
def runActivation (uid : Uid) (ability : Ability) (event : Event) : Change :=
  Change.forEach (runBlock rules rules.emit event uid none) (ability.blocksFor .activate)

end Ruleset

end CardBattle
