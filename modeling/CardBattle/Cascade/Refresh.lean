import CardBattle.Cascade.Broadcast

/-!
# Refreshing auras

The changes that auras make are all taken back and then made anew by broadcasting the two
triggers of continuous effects.  The vitality that a unit lacked before is lacking
afterwards too, so that a refresh heals no unit; a unit that is left without vitality leaves
its board.
-/

namespace CardBattle

/-- The vitality that units lack. -/
abbrev Lacks := List (Uid × Int32)

namespace Battle

/-- The vitality that each unit on the boards lacks. -/
def lacks (b : Battle) : Except Fault Lacks :=
  b.units.mapM fun u => do return (u.uid, ← Word.subtract u.vitalityMax u.vitality)

end Battle

/-- The last of the numbers noted for a uid. -/
def Lacks.of? (l : Lacks) (uid : Uid) : Option Int32 :=
  ((l.filter fun e => e.1 = uid).getLast?).map (·.2)

/-- The unit with its vitality lowered, if need be, so that it lacks what is noted. -/
def BoardUnit.keepLack (l : Lacks) (u : BoardUnit) : BoardUnit :=
  match l.of? u.uid with
  | some lack =>
      let most := u.vitalityMax.toInt - lack.toInt
      { u with vitality := Word.nearest (max 0 (min u.vitality.toInt most)) }
  | none => u

namespace Ruleset

variable (rules : Ruleset)

/-- Takes the changes of auras back and makes them anew, broadcasting two triggers for a
player. -/
def refresh (player : UInt8) (first second : Trigger) : Change := fun b => do
  let lacks ← b.lacks
  let b ← b.changeAll fun u => u.expireBuffs .aura
  let announce trigger := rules.emit { trigger, player }
  let (b, report) ← (Change.forEach announce [first, second]) b
  let b ← b.changeAll fun u => .ok (u.keepLack lacks)
  let (b, swept) ← rules.sweep none 1 b
  return (b, report ++ swept)

end Ruleset

end CardBattle
