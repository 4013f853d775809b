import CardBattle.Proofs.BoardUnit.Restoration
import CardBattle.Script.Codec

/-!
# Reading back a script

Tests, steps and conditions are read back from what they are written as, at any nesting and
also where they are unknown.  What is nested in one of them is written less deep than itself,
so the induction is on the syntax while the depth that is left bounds what is written.  For
steps it is asked that the factors of the boosts that they give are finite.
-/

namespace CardBattle

open Json (LawfulCodec NeverNull ReadsAs Restored defaulted_ok lawful_ofNames optional_ok
  readAs_one readsAs_array readsAs_holding readsAs_levels readsAs_name readsAs_object
  readsAs_tagged requiredAs_ok required_ok restored restored_list)

instance : LawfulCodec Allegiance := lawful_ofNames (by rintro (_ | _ | _) <;> rfl)

instance : LawfulCodec UnitFilter where
  restored f := by
    apply readsAs_object
    intro leniency fields h
    rw [defaulted_ok "side" h (by simp) (restored f.allegiance),
      optional_ok "faction" h (by simp) (restored f.faction),
      optional_ok "class" h (by simp) (restored f.unitClass),
      defaulted_ok "includeSelf" h (by simp) (restored f.includesSelf)]
    rfl

instance : LawfulCodec UnitRef where
  restored ref := by
    cases ref with
    | uid number => exact readsAs_holding rfl ((restored number).map (f := UnitRef.uid))
    | _ => exact readsAs_name rfl

/-! ### Tests -/

mutual

/-- A test is read by a reader that goes as deep as the test is written. -/
theorem readsAs_test (test : BranchTest) (fuel : Nat) (h : test.toJson.depth ≤ fuel) :
  ReadsAs (BranchTest.ofInput (fuel + 1)) test.toJson test
  := by
  cases test with
  | adjacentToSelf unit =>
    apply readsAs_tagged rfl rfl
    intro fields hfields
    rw [defaulted_ok "unit" hfields rfl (restored unit)]
    rfl
  | countAtLeast filter minimum =>
    apply readsAs_tagged rfl rfl
    intro fields hfields
    rw [defaulted_ok "filter" hfields rfl (restored filter),
      required_ok "min" hfields rfl (restored minimum)]
    rfl
  | all tests =>
    -- the tests stand in an array of a field, so one level is left for it
    simp only [BranchTest.toJson, Json.tagged, Json.depth, Json.fieldsDepth] at h
    obtain ⟨fuel, rfl⟩ : ∃ n, fuel = n + 1 := ⟨fuel - 1, by omega⟩
    have htests := readsAs_array (readsAs_tests tests fuel (by omega))
    apply readsAs_tagged rfl rfl
    intro fields hfields
    rw [requiredAs_ok hfields rfl htests]
    rfl
  | _ => exact readsAs_tagged rfl rfl fun _ _ => rfl

theorem readsAs_tests (tests : List BranchTest) (fuel : Nat)
    (h : Json.itemsDepth (testsToJson tests) ≤ fuel) :
  List.Forall₂ (ReadsAs (BranchTest.ofInput (fuel + 1))) (testsToJson tests) tests
  := by
  cases tests with
  | nil => exact .nil
  | cons test rest =>
    rw [testsToJson, Json.itemsDepth] at h
    exact .cons (readsAs_test test fuel (by omega)) (readsAs_tests rest fuel (by omega))

end

instance : LawfulCodec BranchTest where
  restored test := readsAs_levels fun _ h => readsAs_test test _ h

/-! ### Steps -/

mutual

/-- The factors of the boosts that a step gives, or a step of its branches, are finite. -/
def Step.HasFiniteFactors : Step → Prop
  | .boostAttack _ boost => boost.impactFactor.isFinite
  | .branch _ thenSteps elseSteps =>
      scriptHasFiniteFactors thenSteps ∧ scriptHasFiniteFactors elseSteps
  | _ => True

/-- The factors of the boosts that a script gives, at any nesting, are finite. -/
def scriptHasFiniteFactors : List Step → Prop
  | [] => True
  | step :: rest => step.HasFiniteFactors ∧ scriptHasFiniteFactors rest

end

mutual

/-- A step is read by a reader that goes as deep as the step is written. -/
theorem readsAs_step (step : Step) (hfinite : step.HasFiniteFactors) (fuel : Nat)
    (h : step.toJson.depth ≤ fuel) :
  ReadsAs (Step.ofInput (fuel + 1)) step.toJson step
  := by
  cases step with
  | damage whom amount =>
    apply readsAs_tagged rfl rfl
    intro fields hfields
    rw [required_ok "target" hfields rfl (restored whom),
      required_ok "amount" hfields rfl (restored amount)]
    rfl
  | heal whom amount =>
    apply readsAs_tagged rfl rfl
    intro fields hfields
    rw [defaulted_ok "target" hfields rfl (restored whom),
      required_ok "amount" hfields rfl (restored amount)]
    rfl
  | healAllies amount filter =>
    apply readsAs_tagged rfl rfl
    intro fields hfields
    rw [required_ok "amount" hfields rfl (restored amount),
      defaulted_ok "filter" hfields rfl (restored filter)]
    rfl
  | modifyStat whom stat delta duration =>
    apply readsAs_tagged rfl rfl
    intro fields hfields
    rw [defaulted_ok "target" hfields rfl (restored whom),
      required_ok "stat" hfields rfl (restored stat),
      required_ok "delta" hfields rfl (restored delta),
      defaulted_ok "duration" hfields rfl (restored duration)]
    rfl
  | applyStatus whom status detail =>
    apply readsAs_tagged rfl (by simp)
    intro fields hfields
    rw [defaulted_ok "target" hfields (by simp) (restored whom),
      required_ok "status" hfields (by simp) (restored status),
      optional_ok "meta" hfields (by simp) (restored detail)]
    rfl
  | removeStatus whom status =>
    apply readsAs_tagged rfl rfl
    intro fields hfields
    rw [defaulted_ok "target" hfields rfl (restored whom),
      required_ok "status" hfields rfl (restored status)]
    rfl
  | removeNegativeStatus whom | grantUntargetable whom =>
    apply readsAs_tagged rfl rfl
    intro fields hfields
    rw [defaulted_ok "target" hfields rfl (restored whom)]
    rfl
  | preventActive whom cycles =>
    apply readsAs_tagged rfl rfl
    intro fields hfields
    rw [defaulted_ok "target" hfields rfl (restored whom),
      required_ok "cycles" hfields rfl (restored cycles)]
    rfl
  | grantImmunity filter statuses =>
    apply readsAs_tagged rfl rfl
    intro fields hfields
    rw [defaulted_ok "filter" hfields rfl (restored filter),
      required_ok "statuses" hfields rfl (restored statuses)]
    rfl
  | setFlag whom flag value =>
    apply readsAs_tagged rfl rfl
    intro fields hfields
    rw [defaulted_ok "target" hfields rfl (restored whom),
      required_ok "flag" hfields rfl (restored flag),
      defaulted_ok "value" hfields rfl (restored value)]
    rfl
  | boostAttack whom boost =>
    rw [Step.HasFiniteFactors] at hfinite
    apply readsAs_tagged rfl rfl
    intro fields hfields
    rw [defaulted_ok "target" hfields rfl (restored whom),
      Boost.ofFields_ok hfinite hfields (by simp [Boost.toFields])]
    rfl
  | draw count | discard count | peekHand count | revealHandCard count | returnHandCard count =>
    apply readsAs_tagged rfl rfl
    intro fields hfields
    rw [required_ok "count" hfields rfl (restored count)]
    rfl
  | swapPositions first second =>
    apply readsAs_tagged rfl rfl
    intro fields hfields
    rw [required_ok "first" hfields rfl (restored first),
      required_ok "second" hfields rfl (restored second)]
    rfl
  | grantReach whom reach =>
    apply readsAs_tagged rfl rfl
    intro fields hfields
    rw [defaulted_ok "target" hfields rfl (restored whom),
      defaulted_ok "scope" hfields rfl (restored reach)]
    rfl
  | branch test thenSteps elseSteps =>
    rw [Step.HasFiniteFactors] at hfinite
    -- the test is read as deep as it is written, the branches as deep as is left
    simp only [Step.toJson, Json.tagged, Json.depth, Json.fieldsDepth] at h
    obtain ⟨fuel, rfl⟩ : ∃ n, fuel = n + 1 := ⟨fuel - 1, by omega⟩
    have hthen := readsAs_array (readsAs_script thenSteps hfinite.1 fuel (by omega))
    have helse := readsAs_array (readsAs_script elseSteps hfinite.2 fuel (by omega))
    apply readsAs_tagged rfl rfl
    intro fields hfields
    rw [required_ok "condition" hfields rfl (restored test), readAs_one hfields rfl hthen,
      readAs_one hfields rfl helse]
    rfl
  | unknown => exact readsAs_tagged rfl rfl fun _ _ => rfl

theorem readsAs_script (script : List Step) (hfinite : scriptHasFiniteFactors script) (fuel : Nat)
    (h : Json.itemsDepth (scriptToJson script) ≤ fuel) :
  List.Forall₂ (ReadsAs (Step.ofInput (fuel + 1))) (scriptToJson script) script
  := by
  cases script with
  | nil => exact .nil
  | cons step rest =>
    rw [scriptHasFiniteFactors] at hfinite
    rw [scriptToJson, Json.itemsDepth] at h
    have hstep := readsAs_step step hfinite.1 fuel (by omega)
    exact .cons hstep (readsAs_script rest hfinite.2 fuel (by omega))

end

/-- A step is restored if the factors of the boosts that it gives are finite. -/
theorem restored_step {step : Step} (hfinite : step.HasFiniteFactors) :
  Restored step
  := readsAs_levels fun _ h => readsAs_step step hfinite _ h

theorem forall_finiteFactors {script : List Step} (h : scriptHasFiniteFactors script) :
  ∀ step ∈ script, step.HasFiniteFactors
  := by
  induction script with
  | nil => simp
  | cons step rest ih =>
    rw [scriptHasFiniteFactors] at h
    exact List.forall_mem_cons.mpr ⟨h.1, ih h.2⟩

theorem restored_script {script : List Step} (hfinite : scriptHasFiniteFactors script) :
  Restored script
  := restored_list fun step hstep => restored_step (forall_finiteFactors hfinite step hstep)

/-! ### Conditions -/

mutual

/-- A condition is read by a reader that goes as deep as the condition is written. -/
theorem readsAs_condition (condition : Condition) (fuel : Nat)
    (h : condition.toJson.depth ≤ fuel) :
  ReadsAs (Condition.ofInput (fuel + 1)) condition.toJson condition
  := by
  cases condition with
  | selfZone lane =>
    apply readsAs_tagged rfl rfl
    intro fields hfields
    rw [required_ok "zone" hfields rfl (restored lane)]
    rfl
  | allyNameInPlay beginning | targetName beginning =>
    apply readsAs_tagged rfl rfl
    intro fields hfields
    rw [required_ok "prefix" hfields rfl (restored beginning)]
    rfl
  | adjacentAlly faction =>
    apply readsAs_tagged rfl (by simp)
    intro fields hfields
    rw [optional_ok "faction" hfields (by simp) (restored faction)]
    rfl
  | targetFaction faction =>
    apply readsAs_tagged rfl rfl
    intro fields hfields
    rw [required_ok "faction" hfields rfl (restored faction)]
    rfl
  | targetHasClass className =>
    apply readsAs_tagged rfl rfl
    intro fields hfields
    rw [required_ok "class" hfields rfl (restored className)]
    rfl
  | selfFlag flag =>
    apply readsAs_tagged rfl rfl
    intro fields hfields
    rw [required_ok "flag" hfields rfl (restored flag)]
    rfl
  | countAtLeast filter minimum =>
    apply readsAs_tagged rfl rfl
    intro fields hfields
    rw [defaulted_ok "filter" hfields rfl (restored filter),
      required_ok "min" hfields rfl (restored minimum)]
    rfl
  | all conditions =>
    simp only [Condition.toJson, Json.tagged, Json.depth, Json.fieldsDepth] at h
    obtain ⟨fuel, rfl⟩ : ∃ n, fuel = n + 1 := ⟨fuel - 1, by omega⟩
    have hconditions := readsAs_array (readsAs_conditions conditions fuel (by omega))
    apply readsAs_tagged rfl rfl
    intro fields hfields
    rw [requiredAs_ok hfields rfl hconditions]
    rfl
  | _ => exact readsAs_tagged rfl rfl fun _ _ => rfl

theorem readsAs_conditions (conditions : List Condition) (fuel : Nat)
    (h : Json.itemsDepth (conditionsToJson conditions) ≤ fuel) :
  List.Forall₂ (ReadsAs (Condition.ofInput (fuel + 1))) (conditionsToJson conditions) conditions
  := by
  cases conditions with
  | nil => exact .nil
  | cons condition rest =>
    rw [conditionsToJson, Json.itemsDepth] at h
    have hcondition := readsAs_condition condition fuel (by omega)
    exact .cons hcondition (readsAs_conditions rest fuel (by omega))

end

instance : LawfulCodec Condition where
  restored condition := readsAs_levels fun _ h => readsAs_condition condition _ h

instance : NeverNull Condition where
  encode_ne_null condition h := by cases condition <;> cases h

end CardBattle
