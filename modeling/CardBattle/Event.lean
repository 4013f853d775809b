import CardBattle.Battle.Codec
import CardBattle.Trigger

/-!
# Events

An event is an occurrence of a trigger.  It names the player it concerns and the units that
take part in it, and is broadcast to the units on the boards in scan order.  The event of an
elimination carries the unit that was eliminated as it was, and that unit keeps its place in
the order.
-/

namespace CardBattle

/-- An occurrence of a trigger. -/
structure Event where
  trigger : Trigger
  /-- The player who acts, or the owner of the unit eliminated. -/
  player : UInt8
  source : Option Uid := none
  target : Option Uid := none
  mover : Option Uid := none
  /-- The unit eliminated, as it was before it left the board. -/
  eliminated : Option BoardUnit := none
  /-- How many events this one is nested in. -/
  depth : UInt32 := 0
deriving DecidableEq

namespace Event

/-- The unit with a uid: the one on a board, else the one eliminated. -/
def unit? (event : Event) (b : Battle) (uid : Uid) : Option BoardUnit :=
  b.find? uid <|> event.eliminated.filter (fun u => u.uid = uid)

/-- The target of the event. -/
def targetUnit? (event : Event) (b : Battle) : Option BoardUnit :=
  event.target.bind (event.unit? b)

/-- Whether the event concerns a unit. -/
def concerns (event : Event) (u : BoardUnit) : Bool :=
  match event.trigger with
  | .turnStartSelf => u.owner = event.player
  | .onAllyEliminated => event.eliminated.any (fun gone => gone.owner = u.owner)
  | .onEnemyEliminated => event.eliminated.any (fun gone => gone.owner ≠ u.owner)
  | .activate => false
  | .unknown => false
  | _ => true

/-- The depth of the events that answers to this one cause. -/
def innerDepth (event : Event) : Except Fault UInt32 :=
  (Word.next event.depth).mapError fun _ => .nestedTooDeep

/-- The unit eliminated, for the events in which it takes part itself. -/
def departed? (event : Event) : Option BoardUnit :=
  match event.trigger with
  | .onUnitEliminated => event.eliminated
  | _ => none

end Event

/-- Whether a unit comes before another in scan order, going by the owners and the cells
that they name. -/
def BoardUnit.precedes (u other : BoardUnit) : Bool :=
  let key (v : BoardUnit) := (v.owner.toNat, v.cell.lane.rank, v.cell.column.toNat)
  let (owner, lane, column) := key u
  let (owner', lane', column') := key other
  owner < owner' || owner = owner'
    && (lane < lane' || lane = lane' && column < column')

/-- The uids of units in scan order with that of `gone` before the first unit that it
precedes. -/
def insertUid (b : Battle) (gone : BoardUnit) : List Uid → List Uid
  | [] => [gone.uid]
  | uid :: rest =>
      if (b.find? uid).any gone.precedes then gone.uid :: uid :: rest
      else uid :: insertUid b gone rest

/-- The uids of the units to which an event is broadcast, in order. -/
def Event.recipients (event : Event) (b : Battle) : List Uid :=
  let uids := b.units.map BoardUnit.uid
  match event.departed? with
  | some gone => insertUid b gone uids
  | none => uids

open Json (Fields decode encode)

instance : Json.Codec Event where
  encode event := .object (
    [("trigger", encode event.trigger), ("player", encode event.player)]
      ++ Fields.ofOption "source" event.source
      ++ Fields.ofOption "target" event.target
      ++ Fields.ofOption "mover" event.mover
      ++ Fields.ofOption "eliminated" event.eliminated
      ++ [("depth", encode event.depth)])
  decode input := input.readObject fun fields => Event.mk
    <$> fields.required "trigger"
    <*> fields.required "player"
    <*> fields.optional "source"
    <*> fields.optional "target"
    <*> fields.optional "mover"
    <*> fields.optional "eliminated"
    <*> fields.defaulted "depth" 0

end CardBattle
