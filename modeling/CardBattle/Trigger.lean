import CardBattle.Json.Codec

/-!
# Triggers

A trigger is an occasion on which the rule blocks of cards run.  All but `activate` and
`unknown` are broadcast to the units on the boards.
-/

namespace CardBattle

/-- The occasions on which rule blocks run. -/
inductive Trigger
  | onDeploy
  | onUnitMove
  | onAttackDeclare
  | onAttackHit
  | onUnitEliminated
  | onAllyEliminated
  | onEnemyEliminated
  | turnStartSelf
  | ruleMod
  | aura
  /-- The activation of an ability, which concerns no other unit. -/
  | activate
  /-- Any occasion that is not known; it never arises. -/
  | unknown
deriving DecidableEq

namespace Trigger

/-- The occasions of one elimination, in the order in which they are broadcast. -/
def eliminations : List Trigger :=
  [.onUnitEliminated, .onAllyEliminated, .onEnemyEliminated]

/-- The name of a trigger in JSON. -/
def name : Trigger → String
  | .onDeploy => "ON_DEPLOY"
  | .onUnitMove => "ON_UNIT_MOVE"
  | .onAttackDeclare => "ON_ATTACK_DECLARE"
  | .onAttackHit => "ON_ATTACK_HIT"
  | .onUnitEliminated => "ON_UNIT_ELIMINATED"
  | .onAllyEliminated => "ON_ALLY_ELIMINATED"
  | .onEnemyEliminated => "ON_ENEMY_ELIMINATED"
  | .turnStartSelf => "TURN_START_SELF"
  | .ruleMod => "RULE_MOD"
  | .aura => "AURA"
  | .activate => "ACTIVATE"
  | .unknown => "UNKNOWN"

/-- The trigger of a name; a name that is not known gives `unknown`. -/
def ofName : String → Trigger
  | "ON_DEPLOY" => .onDeploy
  | "ON_UNIT_MOVE" => .onUnitMove
  | "ON_ATTACK_DECLARE" => .onAttackDeclare
  | "ON_ATTACK_HIT" => .onAttackHit
  | "ON_UNIT_ELIMINATED" => .onUnitEliminated
  | "ON_ALLY_ELIMINATED" => .onAllyEliminated
  | "ON_ENEMY_ELIMINATED" => .onEnemyEliminated
  | "TURN_START_SELF" => .turnStartSelf
  | "RULE_MOD" => .ruleMod
  | "AURA" => .aura
  | "ACTIVATE" => .activate
  | "ON_ACTIVATE" => .activate
  | _ => .unknown

instance : Json.Codec Trigger := .ofNames name (fun s => some (ofName s))

end Trigger

end CardBattle
