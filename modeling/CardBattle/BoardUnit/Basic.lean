import CardBattle.AttackModifier
import CardBattle.Buff
import CardBattle.Card.Basic
import CardBattle.Cell
import CardBattle.Reach
import CardBattle.SortedMap
import CardBattle.Status
import CardBattle.Uid

/-!
# Units on a board

A unit is dealt out by a card and from then on has statistics of its own.  Its vitality is
kept between zero and the maximum by every change; the maximum follows permanent changes
and buffs and never falls below zero.
-/

namespace CardBattle

/-- A unit on a board. -/
structure BoardUnit where
  uid : Uid
  cardId : String
  owner : UInt8
  cell : Cell
  vitality : Int32
  vitalityMax : Int32
  impact : Int32
  defence : Int32
  velocity : Int32
  statuses : List Status := []
  immunities : List String := []
  cooldowns : SortedMap UInt8 UInt32 := ∅
  usesLeft : SortedMap UInt8 UInt32 := ∅
  modifiers : List AttackModifier := []
  flags : SortedMap String Bool := ∅
  buffs : List Buff := []
  hasAttacked : Bool := false
  isNew : Bool := false
  reach : Option Reach := none
  isUntargetable : Bool := false
  /-- The first turn in which active abilities can be used again. -/
  preventedUntil : Option UInt32 := none
deriving DecidableEq

namespace BoardUnit

/-- The unit that a card puts on a board.  All its active abilities are ready. -/
def ofCard (uid : Uid) (owner : UInt8) (cell : Cell) (card : Card) : BoardUnit :=
  { uid, cardId := card.id, owner, cell
    vitality := card.stats.vitality
    vitalityMax := card.stats.vitality
    impact := card.stats.impact
    defence := card.stats.defence
    velocity := card.stats.velocity
    cooldowns := .ofList (card.activeAbilities.map fun (slot, _) => (slot, 0))
    usesLeft := .ofList (card.activeAbilities.filterMap fun (slot, a) =>
      a.uses.map fun n => (slot, n))
    isNew := true }

/-- Whether the unit is alive. -/
def isAlive (u : BoardUnit) : Bool :=
  0 < u.vitality

/-- The value of a statistic. -/
def stat (u : BoardUnit) : Stat → Int32
  | .vitality => u.vitality
  | .impact => u.impact
  | .defence => u.defence
  | .velocity => u.velocity

/-- The unit with the given maximum of vitality, which counts as zero if it is less, and
with vitality in the range that this leaves. -/
def withVitality (u : BoardUnit) (vitality vitalityMax : Int32) : Except Fault BoardUnit := do
  let top := Word.nearest (max 0 vitalityMax.toInt)
  return { u with vitality := ← Word.clamp 0 top vitality, vitalityMax := top }

/-- The unit with a statistic changed for good; a change of vitality is one of its maximum
too. -/
def modifyStat (u : BoardUnit) (delta : Int32) : Stat → Except Fault BoardUnit
  | .vitality => do
      let vitalityMax ← Word.add u.vitalityMax delta
      let vitality ← Word.add u.vitality delta
      u.withVitality vitality vitalityMax
  | .impact => do return { u with impact := ← Word.add u.impact delta }
  | .defence => do return { u with defence := ← Word.add u.defence delta }
  | .velocity => do return { u with velocity := ← Word.add u.velocity delta }

/-- The unit with a statistic changed for some time. -/
def addBuff (u : BoardUnit) (stat : Stat) (delta : Int32) (expiry : Duration) :
    Except Fault BoardUnit := do
  let changed ← u.modifyStat delta stat
  match expiry with
  | .permanent => return changed
  | _ => return { changed with buffs := changed.buffs ++ [⟨stat, delta, expiry⟩] }

/-- The unit with the change of a buff taken back.  When a gain of vitality goes, only the
maximum falls; when a loss goes, the vitality comes back with it. -/
def undoBuff (u : BoardUnit) (b : Buff) : Except Fault BoardUnit := do
  match b.stat with
  | .vitality =>
      let vitalityMax ← Word.subtract u.vitalityMax b.delta
      let vitality ← if b.delta < 0 then Word.subtract u.vitality b.delta
        else pure u.vitality
      u.withVitality vitality vitalityMax
  | stat => u.modifyStat (← Word.negate b.delta) stat

/-- The buffs that end with the given duration. -/
def expiring (u : BoardUnit) (expiry : Duration) : List Buff :=
  u.buffs.filter (fun b => b.expiry = expiry)

/-- The unit with all buffs of a duration taken back, the oldest first. -/
def expireBuffs (u : BoardUnit) (expiry : Duration) : Except Fault BoardUnit :=
  (u.expiring expiry).foldlM undoBuff
    { u with buffs := u.buffs.filter (fun b => b.expiry ≠ expiry) }

/-- The unit after damage; an amount below zero does nothing but keep vitality in its
range. -/
def takeDamage (u : BoardUnit) (amount : Int32) : Except Fault BoardUnit := do
  let vitality ← Word.subtract u.vitality (Word.nearest (max 0 amount.toInt))
  let top := Word.nearest (max 0 u.vitalityMax.toInt)
  return { u with vitality := ← Word.clamp 0 top vitality }

/-- The unit after healing, and by how much its vitality has grown. -/
def heal (u : BoardUnit) (amount : Int32) : Except Fault (BoardUnit × Int32) := do
  let vitality ← Word.add u.vitality (Word.nearest (max 0 amount.toInt))
  let vitality := Word.nearest (min vitality.toInt u.vitalityMax.toInt)
  return ({ u with vitality }, ← Word.subtract vitality u.vitality)

/-- Whether the unit is in the status of the given name. -/
def hasStatus (u : BoardUnit) (name : String) : Bool :=
  u.statuses.any (fun s => s.isNamed name)

/-- Whether the unit is in a negative status. -/
def hasNegativeStatus (u : BoardUnit) : Bool :=
  u.statuses.any Status.isNegative

/-- Whether the unit is immune to the status of the given name, or to all. -/
def isImmuneTo (u : BoardUnit) (name : String) : Bool :=
  u.immunities.any (fun immunity => Text.sameLetters immunity name || immunity = "*")

/-- The unit with an immunity that it may have already. -/
def addImmunity (u : BoardUnit) (name : String) : BoardUnit :=
  if u.immunities.any (fun immunity => Text.sameLetters immunity name) then u
  else { u with immunities := u.immunities ++ [name] }

/-- The unit without its first negative status, and that status. -/
def removeNegativeStatus? (u : BoardUnit) : Option (BoardUnit × Status) :=
  (u.statuses.find? Status.isNegative).map fun s =>
    ({ u with statuses := u.statuses.eraseP Status.isNegative }, s)

/-- Whether the flag is set. -/
def flag (u : BoardUnit) (name : String) : Bool :=
  (u.flags.find? name).getD false

/-- Whether two units stand side by side on the board of one owner. -/
def isAdjacentTo (u other : BoardUnit) : Bool :=
  u.owner = other.owner && u.uid ≠ other.uid && u.cell.touches other.cell

/-- Whether the unit can attack from the lane it is in. -/
def canAttackFromLane (u : BoardUnit) : Bool :=
  u.cell.lane = .front || u.reach.isSome

/-- Whether the active abilities of the unit are prevented in a turn. -/
def isPrevented (u : BoardUnit) (turn : UInt32) : Bool :=
  u.preventedUntil.any (turn < ·)

/-- The place of the first modifier that no attack has consumed. -/
def pendingModifier? (u : BoardUnit) : Option Nat :=
  u.modifiers.findIdx? (fun m => !m.consumed)

/-- The unit with the modifier at a place consumed. -/
def consumeModifier (u : BoardUnit) (place : Nat) : BoardUnit :=
  { u with modifiers := u.modifiers.modify place (fun m => { m with consumed := true }) }

/-- The turns that are left of a cooldown after one more turn. -/
def coolDown (n : UInt32) : UInt32 :=
  UInt32.ofNat (n.toNat - 1)

/-- The unit at the end of a turn. -/
def endCycle (u : BoardUnit) : Except Fault BoardUnit := do
  let v ← expireBuffs
    { u with
      hasAttacked := false
      isNew := false
      cooldowns := u.cooldowns.mapValues coolDown }
    .endOfCycle
  return { v with modifiers := v.modifiers.filter (fun m => !m.consumed && !m.thisTurnOnly) }

end BoardUnit

end CardBattle
