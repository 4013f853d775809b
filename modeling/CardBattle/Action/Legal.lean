import CardBattle.Action.Permit

/-!
# Legal actions

The actions that the active player can take are found by filtering a list of candidates.
Of equal cards in a hand only the first is a candidate, and an ability that needs no target
is a candidate without one.
-/

namespace CardBattle

/-- The first place of each card in a hand, in order, behind the cards `seen`; the places
count up from `place`. -/
def firstPlaces (seen : List String) (place : Nat) : List String → List Nat
  | [] => []
  | id :: rest =>
      if id ∈ seen then firstPlaces seen (place + 1) rest
      else place :: firstPlaces (id :: seen) (place + 1) rest

namespace Ruleset

variable (rules : Ruleset) (b : Battle)

/-- The ways to play a card of a hand. -/
def playCandidates (side : Side) : List Action :=
  (firstPlaces [] 0 side.hand).flatMap fun place =>
    side.board.freeCells.map fun cell =>
      .playUnit b.activePlayer (UInt64.ofNat place) cell

/-- The ways to use an active ability of a unit. -/
def activationCandidates (u : BoardUnit) (slot : UInt8) (ability : Ability) : List Action :=
  if ability.needsTarget then
    (rules.abilityTargets b u.uid slot).map fun target =>
      .activate b.activePlayer u.uid slot (some target)
  else [.activate b.activePlayer u.uid slot none]

/-- The ways to use the active abilities of a unit. -/
def abilityCandidates (u : BoardUnit) : List Action :=
  match rules.cardOf? u with
  | none => []
  | some card =>
      card.activeAbilities.flatMap fun (slot, ability) =>
        rules.activationCandidates b u slot ability

/-- The ways to act with a unit: to move it, to attack with it, to use its abilities. -/
def unitCandidates (side : Side) (u : BoardUnit) : List Action :=
  (side.board.freeCells.map fun cell => .move b.activePlayer u.uid cell)
    ++ ((b.attackTargets u.uid).map fun target => .attack b.activePlayer u.uid target)
    ++ rules.abilityCandidates b u

/-- The candidates for a legal action. -/
def candidates : List Action :=
  match b.side? b.activePlayer with
  | none => []
  | some side =>
      playCandidates b side ++ side.board.units.flatMap (rules.unitCandidates b side)

/-- The actions that the active player can take; ending the turn is the last. -/
def legalActions : List Action :=
  (rules.candidates b).filter (fun action => (rules.validate b action).toBool)
    ++ [.endTurn b.activePlayer]

end Ruleset

end CardBattle
