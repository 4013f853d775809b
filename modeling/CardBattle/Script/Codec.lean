import CardBattle.Script.Condition
import CardBattle.Script.Step

/-!
# Scripts in JSON

Steps, tests and conditions are objects with a field that names their kind; a kind that is
not known gives the unknown step, test or condition, whatever the other fields are.  Those
that contain others are read as deep as the value they are read from can be, which is always
enough.
-/

namespace CardBattle

open Json (Fields Input Kinds ReadFault decode encode readArray)

namespace UnitRef

/-- The unit reference of a name. -/
def ofName? : String → Option UnitRef
  | "SELF" => some .self
  | "TARGET" => some .target
  | "MOVER" => some .mover
  | "SOURCE" => some .source
  | _ => none

instance : Json.Codec UnitRef where
  encode
    | .self => .string "SELF"
    | .target => .string "TARGET"
    | .mover => .string "MOVER"
    | .source => .string "SOURCE"
    | .uid number => .object [("UID", encode number)]
  decode input := input.readName fun
    | "UID" => some (.holding fun content => (decode content).map UnitRef.uid)
    | name => (ofName? name).map .value

end UnitRef

/-! ### Tests -/

mutual

/-- The JSON value of a test. -/
def BranchTest.toJson : BranchTest → Json
  | .adjacentToSelf unit => .tagged "type" "ADJACENT_TO_SELF" [("unit", encode unit)]
  | .targetHasNegativeStatus => .tagged "type" "TARGET_HAS_NEGATIVE_STATUS" []
  | .countAtLeast filter minimum =>
      .tagged "type" "COUNT_AT_LEAST" [("filter", encode filter), ("min", encode minimum)]
  | .all tests => .tagged "type" "AND" [("conditions", .array (testsToJson tests))]
  | .unknown => .tagged "type" "UNKNOWN" []

/-- The JSON values of the tests of a list. -/
def testsToJson : List BranchTest → List Json
  | [] => []
  | test :: rest => test.toJson :: testsToJson rest

end

/-- The kinds of tests. -/
def BranchTest.kinds : Kinds where
  names := ["ADJACENT_TO_SELF", "TARGET_HAS_NEGATIVE_STATUS", "COUNT_AT_LEAST", "AND"]
  other? := some "UNKNOWN"

/-- The test that an input gives, when tests are nested less than `fuel` deep in it. -/
def BranchTest.ofInput : Nat → Input → Except ReadFault BranchTest
  | 0, _ => .error .shape
  | fuel + 1, input => input.readTagged "type" kinds fun kind fields => match kind with
    | "ADJACENT_TO_SELF" => .adjacentToSelf <$> fields.defaulted "unit" .target
    | "TARGET_HAS_NEGATIVE_STATUS" => .value .targetHasNegativeStatus
    | "COUNT_AT_LEAST" =>
        .countAtLeast <$> fields.defaulted "filter" {} <*> fields.required "min"
    | "AND" => .all <$> fields.requiredAs ["conditions"] (readArray (BranchTest.ofInput fuel))
    | _ => .value .unknown

instance : Json.Codec BranchTest where
  encode := BranchTest.toJson
  decode input := BranchTest.ofInput (input.levels + 1) input

/-! ### Steps -/

mutual

/-- The JSON value of a step. -/
def Step.toJson : Step → Json
  | .damage whom amount =>
      .tagged "op" "DAMAGE" [("target", encode whom), ("amount", encode amount)]
  | .heal whom amount =>
      .tagged "op" "HEAL" [("target", encode whom), ("amount", encode amount)]
  | .healAllies amount filter =>
      .tagged "op" "HEAL_ALLIES" [("amount", encode amount), ("filter", encode filter)]
  | .modifyStat whom stat delta duration =>
      .tagged "op" "MODIFY_STAT" [("target", encode whom), ("stat", encode stat),
        ("delta", encode delta), ("duration", encode duration)]
  | .applyStatus whom status detail =>
      .tagged "op" "APPLY_STATUS" (("target", encode whom) :: ("status", encode status)
        :: Fields.ofOption "meta" detail)
  | .removeStatus whom status =>
      .tagged "op" "REMOVE_STATUS" [("target", encode whom), ("status", encode status)]
  | .removeNegativeStatus whom =>
      .tagged "op" "REMOVE_NEGATIVE_STATUS" [("target", encode whom)]
  | .preventActive whom cycles =>
      .tagged "op" "PREVENT_ACTIVE" [("target", encode whom), ("cycles", encode cycles)]
  | .grantImmunity filter statuses =>
      .tagged "op" "GRANT_STATUS_IMMUNITY"
        [("filter", encode filter), ("statuses", encode statuses)]
  | .setFlag whom flag value =>
      .tagged "op" "SET_FLAG"
        [("target", encode whom), ("flag", encode flag), ("value", encode value)]
  | .boostAttack whom boost =>
      .tagged "op" "ATTACK_MODIFIER" (("target", encode whom) :: boost.toFields)
  | .draw count => .tagged "op" "DRAW" [("count", encode count)]
  | .discard count => .tagged "op" "DISCARD" [("count", encode count)]
  | .peekHand count => .tagged "op" "PEEK_HAND" [("count", encode count)]
  | .swapPositions first second =>
      .tagged "op" "SWAP_POSITIONS" [("first", encode first), ("second", encode second)]
  | .grantReach whom reach =>
      .tagged "op" "GRANT_BACKLINE_ATTACK" [("target", encode whom), ("scope", encode reach)]
  | .grantUntargetable whom => .tagged "op" "GRANT_UNTARGETABLE" [("target", encode whom)]
  | .branch test thenSteps elseSteps =>
      .tagged "op" "IF" [("condition", encode test), ("then", .array (scriptToJson thenSteps)),
        ("else", .array (scriptToJson elseSteps))]
  | .revealHandCard count => .tagged "op" "REVEAL_HAND_CARD" [("count", encode count)]
  | .returnHandCard count => .tagged "op" "RETURN_HAND_CARD_TO_DECK" [("count", encode count)]
  | .unknown => .tagged "op" "UNKNOWN" []

/-- The JSON values of the steps of a script. -/
def scriptToJson : List Step → List Json
  | [] => []
  | step :: rest => step.toJson :: scriptToJson rest

end

/-- The kinds of steps. -/
def Step.kinds : Kinds where
  names := ["DAMAGE", "HEAL", "HEAL_ALLIES", "MODIFY_STAT", "APPLY_STATUS", "REMOVE_STATUS",
    "REMOVE_NEGATIVE_STATUS", "PREVENT_ACTIVE", "GRANT_STATUS_IMMUNITY", "SET_FLAG",
    "ATTACK_MODIFIER", "DRAW", "DISCARD", "PEEK_HAND", "SWAP_POSITIONS",
    "GRANT_BACKLINE_ATTACK", "GRANT_UNTARGETABLE", "IF", "REVEAL_HAND_CARD",
    "RETURN_HAND_CARD_TO_DECK"]
  other? := some "UNKNOWN"

/-- The step that an input gives, when steps are nested less than `fuel` deep in it. -/
def Step.ofInput : Nat → Input → Except ReadFault Step
  | 0, _ => .error .shape
  | fuel + 1, input => input.readTagged "op" kinds fun kind fields => match kind with
    | "DAMAGE" => .damage <$> fields.required "target" <*> fields.required "amount"
    | "HEAL" => .heal <$> fields.defaulted "target" .self <*> fields.required "amount"
    | "HEAL_ALLIES" => .healAllies <$> fields.required "amount" <*> fields.defaulted "filter" {}
    | "MODIFY_STAT" => .modifyStat <$> fields.defaulted "target" .self
        <*> fields.required "stat" <*> fields.required "delta"
        <*> fields.defaulted "duration" .permanent
    | "APPLY_STATUS" => .applyStatus <$> fields.defaulted "target" .self
        <*> fields.required "status" <*> fields.optional "meta"
    | "REMOVE_STATUS" =>
        .removeStatus <$> fields.defaulted "target" .self <*> fields.required "status"
    | "REMOVE_NEGATIVE_STATUS" => .removeNegativeStatus <$> fields.defaulted "target" .self
    | "PREVENT_ACTIVE" =>
        .preventActive <$> fields.defaulted "target" .self <*> fields.required "cycles"
    | "GRANT_STATUS_IMMUNITY" =>
        .grantImmunity <$> fields.defaulted "filter" {} <*> fields.required "statuses"
    | "SET_FLAG" => .setFlag <$> fields.defaulted "target" .self
        <*> fields.required "flag" <*> fields.defaulted "value" true
    | "ATTACK_MODIFIER" =>
        .boostAttack <$> fields.defaulted "target" .self <*> Boost.ofFields fields
    | "DRAW" => .draw <$> fields.required "count"
    | "DISCARD" => .discard <$> fields.required "count"
    | "PEEK_HAND" => .peekHand <$> fields.required "count"
    | "SWAP_POSITIONS" =>
        .swapPositions <$> fields.required "first" <*> fields.required "second"
    | "GRANT_BACKLINE_ATTACK" =>
        .grantReach <$> fields.defaulted "target" .self <*> fields.defaulted "scope" .frontLane
    | "GRANT_UNTARGETABLE" => .grantUntargetable <$> fields.defaulted "target" .self
    | "IF" => .branch <$> fields.required "condition"
        <*> fields.readAs ["then"] (readArray (Step.ofInput fuel)) (.value [])
        <*> fields.readAs ["else"] (readArray (Step.ofInput fuel)) (.value [])
    | "REVEAL_HAND_CARD" => .revealHandCard <$> fields.required "count"
    | "RETURN_HAND_CARD_TO_DECK" => .returnHandCard <$> fields.required "count"
    | _ => .value .unknown

instance : Json.Codec Step where
  encode := Step.toJson
  decode input := Step.ofInput (input.levels + 1) input

/-! ### Conditions -/

mutual

/-- The JSON value of a condition. -/
def Condition.toJson : Condition → Json
  | .selfZone lane => .tagged "type" "SELF_ZONE" [("zone", encode lane)]
  | .allyNameInPlay beginning =>
      .tagged "type" "ALLY_NAME_PREFIX_IN_PLAY" [("prefix", encode beginning)]
  | .adjacentAlly faction =>
      .tagged "type" "ADJACENT_ALLY" (Fields.ofOption "faction" faction)
  | .moverIsEnemy => .tagged "type" "MOVER_IS_ENEMY" []
  | .targetName beginning =>
      .tagged "type" "TARGET_NAME_PREFIX" [("prefix", encode beginning)]
  | .targetIsEnemy => .tagged "type" "TARGET_IS_ENEMY" []
  | .targetFaction faction => .tagged "type" "TARGET_FACTION" [("faction", encode faction)]
  | .targetHasClass className =>
      .tagged "type" "TARGET_HAS_CLASS" [("class", encode className)]
  | .targetSlowerThanSelf => .tagged "type" "TARGET_SLOWER_THAN_SELF" []
  | .selfFirstAttacker => .tagged "type" "SELF_FIRST_ATTACKER" []
  | .selfIsSource => .tagged "type" "SELF_IS_SOURCE" []
  | .selfFlag flag => .tagged "type" "SELF_FLAG" [("flag", encode flag)]
  | .countAtLeast filter minimum =>
      .tagged "type" "COUNT_AT_LEAST" [("filter", encode filter), ("min", encode minimum)]
  | .all conditions =>
      .tagged "type" "AND" [("conditions", .array (conditionsToJson conditions))]
  | .unknown => .tagged "type" "UNKNOWN" []

/-- The JSON values of the conditions of a list. -/
def conditionsToJson : List Condition → List Json
  | [] => []
  | condition :: rest => condition.toJson :: conditionsToJson rest

end

/-- The kinds of conditions. -/
def Condition.kinds : Kinds where
  names := ["SELF_ZONE", "ALLY_NAME_PREFIX_IN_PLAY", "ADJACENT_ALLY", "MOVER_IS_ENEMY",
    "TARGET_NAME_PREFIX", "TARGET_IS_ENEMY", "TARGET_FACTION", "TARGET_HAS_CLASS",
    "TARGET_SLOWER_THAN_SELF", "SELF_FIRST_ATTACKER", "SELF_IS_SOURCE", "SELF_FLAG",
    "COUNT_AT_LEAST", "AND"]
  other? := some "UNKNOWN"

/-- The condition that an input gives, when conditions are nested less than `fuel` deep in
it. -/
def Condition.ofInput : Nat → Input → Except ReadFault Condition
  | 0, _ => .error .shape
  | fuel + 1, input => input.readTagged "type" kinds fun kind fields => match kind with
    | "SELF_ZONE" => .selfZone <$> fields.required "zone"
    | "ALLY_NAME_PREFIX_IN_PLAY" => .allyNameInPlay <$> fields.required "prefix"
    | "ADJACENT_ALLY" => .adjacentAlly <$> fields.optional "faction"
    | "MOVER_IS_ENEMY" => .value .moverIsEnemy
    | "TARGET_NAME_PREFIX" => .targetName <$> fields.required "prefix"
    | "TARGET_IS_ENEMY" => .value .targetIsEnemy
    | "TARGET_FACTION" => .targetFaction <$> fields.required "faction"
    | "TARGET_HAS_CLASS" => .targetHasClass <$> fields.required "class"
    | "TARGET_SLOWER_THAN_SELF" => .value .targetSlowerThanSelf
    | "SELF_FIRST_ATTACKER" => .value .selfFirstAttacker
    | "SELF_IS_SOURCE" => .value .selfIsSource
    | "SELF_FLAG" => .selfFlag <$> fields.required "flag"
    | "COUNT_AT_LEAST" =>
        .countAtLeast <$> fields.defaulted "filter" {} <*> fields.required "min"
    | "AND" => .all <$> fields.requiredAs ["conditions"] (readArray (Condition.ofInput fuel))
    | _ => .value .unknown

instance : Json.Codec Condition where
  encode := Condition.toJson
  decode input := Condition.ofInput (input.levels + 1) input

end CardBattle
