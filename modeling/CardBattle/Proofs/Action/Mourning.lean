import CardBattle.Proofs.Action.Conservation
import CardBattle.Proofs.Cascade.Mourning

/-!
# Eliminations are counted once

Whatever comes of an accepted action, the units of a card that mourns count each unit that
is eliminated in its course once (`eliminations_counted_once`).  The units that take part in
an action are those on the boards and the one that it deploys; since no unit leaves the
boards but by elimination, those that are on no board afterwards were eliminated.
-/

namespace CardBattle

open Change

/-- The unit that an action puts on a board, if it is to. -/
def Permit.deployed (b : Battle) : Permit → List BoardUnit
  | .playUnit player _ cell card => [.ofCard ⟨b.uids.next⟩ player cell card]
  | _ => []

namespace Ruleset

/-- The units that take part in an action: those on the boards, and the one that it
deploys. -/
def participants (rules : Ruleset) (b : Battle) (action : Action) : List BoardUnit :=
  match rules.permit b action with
  | .ok permit => b.units ++ permit.deployed b
  | .error _ => b.units

/-- The participants of an action that are on no board after it. -/
def eliminated (rules : Ruleset) (b : Battle) (action : Action) (after : Battle) :
    List BoardUnit :=
  (rules.participants b action).filter fun u => (after.find? u.uid).isNone

end Ruleset

/-! ### The census of the eliminated -/

namespace Battle

variable {b b' : Battle}

theorem census_eq_length (b : Battle) (owner : UInt8) (stat : Stat) :
  b.census owner stat = (b.units.filter fun u => stat.counts owner u.owner).length
  := by
  unfold census
  rw [List.countP_map, List.countP_eq_length_filter]
  rfl

/-- If all units come from units before, then the units that a statistic counts are those
that are left and those that are not. -/
theorem census_eq (hb : b.Coherent) (hb' : b'.Coherent)
    (hfrom : ∀ v ∈ b'.units, ∃ u ∈ b.units, u.Persists v) (owner : UInt8) (stat : Stat) :
  b.census owner stat = b'.census owner stat
    + ((b.units.filter fun u => (b'.find? u.uid).isNone).filter
      fun u => stat.counts owner u.owner).length
  := by
  have hleft := (hb.perm_present (fun _ _ => BoardUnit.Persists.owner) hb' hfrom).countP_eq
    fun player => stat.counts owner player
  rw [List.countP_map, List.countP_eq_length_filter] at hleft
  have hsplit := List.length_eq_length_filter_add
    (l := b.units.filter fun u => stat.counts owner u.owner) fun u => b'.has u.uid
  have hlost : ∀ u : BoardUnit, (b'.find? u.uid).isNone = !b'.has u.uid := by simp [has]
  simp only [hlost]
  rw [census_eq_length, hsplit, List.filter_comm,
    List.filter_comm fun u : BoardUnit => !b'.has u.uid]
  apply congrArg (· + _) hleft

/-- Where the units of a battle balance, those of the card have counted all units that are
not left. -/
theorem Balances.stat_eq {id : String} (hb : b.Coherent) (hb' : b'.Coherent)
    (hplain : ∀ u ∈ b.units, u.Plain) (h : b.Balances id b') {v : BoardUnit}
    (hv : v ∈ b'.units) (hcard : v.cardId = id) :
  ∃ u ∈ b.units, u.Persists v ∧ ∀ stat, stat ≠ .vitality →
    (v.stat stat).toInt = (u.stat stat).toInt
      + ((b.units.filter fun u => (b'.find? u.uid).isNone).filter
        fun u => stat.counts v.owner u.owner).length
  := by
  obtain ⟨u, hu, haccrues⟩ := h v hv
  refine ⟨u, hu, haccrues.toPersists, ?_⟩
  intro stat hstat
  have hfrom : ∀ v ∈ b'.units, ∃ u ∈ b.units, u.Persists v := by
    intro w hw
    obtain ⟨u, hu, haccrues⟩ := h w hw
    exact ⟨u, hu, haccrues.toPersists⟩
  have hgrown := haccrues.grown (hplain u hu) hcard stat hstat
  have hcensus := census_eq hb hb' hfrom v.owner stat
  dsimp only at hgrown
  omega

/-- Touches one after another are steady when the alterations of units are. -/
theorem Coherent.touches_steadies {A : BoardUnit → BoardUnit → Prop} (hb : b.Coherent)
    (hendures : ∀ u v, A u v → u.Endures v) (hsteady : ∀ u v, A u v → u.Steady v)
    (h : Touches A b b') :
  b.Steadies b'
  := by
  induction h with
  | refl => apply Steadies.refl
  | tail htouches htouch ih =>
    apply ih.trans
    apply (hb.touches hendures htouches).touch_steadies hendures hsteady htouch

/-- A strike takes vitality and nothing else. -/
theorem Coherent.strike_steadies (hb : b.Coherent) {attacker target : BoardUnit}
    {amount : Int32} (htarget : b.find? target.uid = some target)
    (h : Ruleset.strike b attacker target = .ok (b', amount)) :
  b.Steadies b'
  := by
  apply hb.touches_steadies _ _ (Ruleset.strike_touches htarget h)
  · intro u v hengages
    apply hengages.endures
  · intro u v hengages
    cases hengages with
    | hurt h => apply BoardUnit.takeDamage_steady h
    | exert h => apply h.steady

theorem Coherent.uses_steadies (hb : b.Coherent) {player : UInt8} {uid : Uid} {slot : UInt8}
    {ability : Ability} (h : b.Uses player uid slot ability b') :
  b.Steadies b'
  := by
  obtain ⟨side, hside, hexerts⟩ := h.exerts
  have hmarked := hb.shift (s := side.markUsed ⟨uid, slot⟩) hside rfl
  have hnoted : b.Steadies (b.setSide player (side.markUsed ⟨uid, slot⟩)) :=
    steadies_of_units (units_shift hside rfl)
  apply hnoted.trans
  apply hmarked.touches_steadies _ _ hexerts
  · intro u v hexerts
    apply hexerts.endures
  · intro u v hexerts
    apply hexerts.steady

end Battle

/-! ### The kinds of actions -/

namespace Ruleset

variable {rules : Ruleset} {mourner : Card} {b b' : Battle} {player : UInt8}

/-- An active ability is none of a mourner. -/
theorem HasMourner.activeAbility (hmourner : rules.HasMourner mourner) {u : BoardUnit}
    {card : Card} {slot : UInt8} {ability : Ability} (hcard : rules.cardOf? u = some card)
    (hability : card.activeAbility? slot = some ability) :
  ∀ block ∈ ability.blocksFor .activate, scriptModifiesOnly (· = .vitality) block.script
  := by
  have hmem : ability ∈ card.abilities := List.mem_of_find?_eq_some hability
  have hother : card.id ≠ mourner.id := by
    intro heq
    have hfound := Battle.find?_of_key rules.catalog.distinct hmourner.member
    rw [← heq, Catalog.find?_id hcard] at hfound
    obtain rfl := Option.some.inj (hcard.symm.trans hfound)
    obtain ⟨own, habilities, hkind, -⟩ := hmourner.mourns
    rw [habilities] at hmem
    obtain rfl := List.mem_singleton.mp hmem
    have hslot := List.find?_some hability
    simp [Ability.activeSlot?, hkind] at hslot
  intro block hblock
  apply hmourner.others card (List.mem_of_find?_eq_some hcard) hother ability hmem block
  apply List.mem_of_mem_filter hblock

variable (hmourner : rules.HasMourner mourner)
  (hdepth : 12 ≤ rules.settings.maxTriggerDepth.toNat)

include hmourner hdepth

theorem emitAndRefresh_balances (hb : b.Coherent) {event : Event} (hevent : event.depth = 0)
    (hmourned : event.trigger.mourned? = none) {first second : Trigger}
    (hfirst : first.mourned? = none) (hsecond : second.mourned? = none)
    (h : (rules.emitAndRefresh event first second).Leads b b') :
  b.Balances mourner.id b'
  := by
  obtain ⟨m, hemit, hrefresh⟩ := leads_andThen.mp h
  apply (emit_balances hmourner hdepth hb hevent hmourned hemit).trans
  apply refresh_balances hmourner hdepth _ hfirst hsecond hrefresh
  apply hb.moves (rules.emit_moves _ _ _ hemit)

theorem attackUnit_balances (hb : b.Coherent) {attacker target : Uid}
    (h : (rules.attackUnit player attacker target).Leads b b') :
  b.Balances mourner.id b'
  := by
  obtain ⟨m, hdeclare, hrest⟩ := attackUnit_leads h
  have hb' := hb.noteAttacker attacker
  have hm := hb'.moves (rules.emit_moves _ _ _ hdeclare)
  apply Battle.Balances.trans (emit_balances hmourner hdepth hb' rfl rfl hdeclare)
  obtain ⟨-, hlogs⟩ | ⟨att, tgt, m₁, amount, line, m₂, -, -, htgt, hstrike, hhit, hsweep⟩ := hrest
  · apply (Battle.steadies_of_units hlogs.units_eq).balances
  · have hlogs := m₁.record_logs line
    have hm₁ := (hm.strike htgt hstrike).logs hlogs
    have hm₂ := hm₁.moves (rules.emit_moves _ _ _ hhit)
    apply (hm.strike_steadies htgt hstrike).balances.trans
    apply (Battle.steadies_of_units hlogs.units_eq).balances.trans
    apply (emit_balances hmourner hdepth hm₁ rfl rfl hhit).trans
    apply sweep_balances hmourner hdepth hm₂ hsweep

theorem activate_balances (hb : b.Coherent) {uid : Uid} {slot : UInt8} {target : Option Uid}
    {ability : Ability} {r : Report}
    (hability : ∀ block ∈ ability.blocksFor .activate,
      scriptModifiesOnly (· = .vitality) block.script)
    (h : rules.activate player uid slot target ability b = .ok (b', r)) :
  b.Balances mourner.id b'
  := by
  obtain ⟨m, m', hpaid, hrun, huses⟩ := activate_ok h
  have hendures : ∀ u v : BoardUnit, u.Spares (fun _ => False) v → u.Endures v :=
    fun u v hspares => hspares.alters.endures
  have hsteady : ∀ u v : BoardUnit, u.Spares (fun _ => False) v → u.Steady v :=
    fun u v hspares => (hspares.alters.mono fun _ => False.elim).steady
  have hm := hb.touches hendures hpaid
  have hm' := hm.moves (rules.runActivation_moves hrun)
  apply (hb.touches_steadies hendures hsteady hpaid).balances.trans
  apply (runActivation_balances hmourner hdepth hm rfl hability hrun).trans
  apply (hm'.uses_steadies huses).balances

theorem endTurn_balances (hb : b.Coherent) (h : rules.endTurn.Leads b b') :
  b.Balances mourner.id b'
  := by
  obtain ⟨m₁, m₂, m₃, ⟨hchange, hm₁⟩, ⟨hsweep, -⟩, ⟨hpasses, hm₃⟩, hrest⟩ := endTurn_coherent hb h
  have hended : Battle.Steadies { b with side0.used := ∅, side1.used := ∅ } m₁ :=
    Battle.steadies_changeAll (fun u v hv => BoardUnit.endCycle_steady hv) hchange
  apply Battle.Balances.trans hended.balances
  apply (sweep_balances hmourner hdepth hm₁ hsweep).trans
  apply (Battle.steadies_of_units hpasses.units).balances.trans
  apply emitAndRefresh_balances hmourner hdepth hm₃ rfl rfl rfl rfl hrest

/-- An action that has been checked balances from when its unit, if any, is deployed. -/
theorem carryOut_balances (hb : b.Coherent) {permit : Permit} {r : Report}
    (hchecked : permit.Checked rules b) (h : rules.carryOut permit b = .ok (b', r)) :
  ∃ m : Battle, m.Coherent ∧ m.units.Perm (b.units ++ permit.deployed b) ∧ m.Balances mourner.id b'
  := by
  have hnone : permit.deployed b = [] → b.Balances mourner.id b' →
      ∃ m : Battle, m.Coherent ∧ m.units.Perm (b.units ++ permit.deployed b)
        ∧ m.Balances mourner.id b' := by
    intro hdeployed hbalances
    rw [hdeployed, List.append_nil]
    use b, hb, .refl _
  cases permit with
  | playUnit player handIndex cell card =>
    obtain ⟨m, hdeploys, hrest⟩ := playUnit_ok h
    have hm := hb.deploys hdeploys
    use m, hm, hdeploys.units_perm
    apply emitAndRefresh_balances hmourner hdepth hm rfl rfl rfl rfl hrest
  | move player uid cell =>
    obtain ⟨m, hrelocates, hrest⟩ := moveUnit_ok h
    obtain ⟨m', hrearranges, hcoherent, hlogs⟩ := hb.relocates hrelocates
    have hm := hcoherent.logs hlogs
    have hsteadies := hrearranges.steadies.trans (Battle.steadies_of_units hlogs.units_eq)
    apply hnone rfl
    apply hsteadies.balances.trans
    apply emitAndRefresh_balances hmourner hdepth hm rfl rfl rfl rfl hrest
  | attack player attacker target =>
    apply hnone rfl
    apply attackUnit_balances hmourner hdepth hb ⟨r, lift_fault_eq_ok.mp h⟩
  | activate player uid slot target ability =>
    obtain ⟨side, u, card, -, -, -, hcard, hability⟩ := hchecked
    apply hnone rfl
    apply activate_balances hmourner hdepth hb (hmourner.activeAbility hcard hability) h
  | endTurn =>
    apply hnone rfl
    apply endTurn_balances hmourner hdepth hb ⟨r, lift_fault_eq_ok.mp h⟩

end Ruleset

/-- In an accepted action the units of a card that mourns count each unit that is eliminated
once: impact counts them all, velocity those of the own side, and defence the others. -/
theorem eliminations_counted_once {rules : Ruleset} {mourner : Card}
    (hmourner : rules.HasMourner mourner)
    (hdepth : 12 ≤ rules.settings.maxTriggerDepth.toNat) {b : Battle}
    (hplain : ∀ u ∈ b.units, u.Plain) {action : Action} {resolution : Resolution}
    (h : rules.resolve b action = .ok resolution) :
  ∀ v ∈ resolution.battle.units, v.cardId = mourner.id →
    ∃ u ∈ rules.participants b action, u.Persists v
      ∧ v.impact.toInt = u.impact.toInt
        + (rules.eliminated b action resolution.battle).length
      ∧ v.velocity.toInt = u.velocity.toInt
        + ((rules.eliminated b action resolution.battle).filter (·.owner = v.owner)).length
      ∧ v.defence.toInt = u.defence.toInt
        + ((rules.eliminated b action resolution.battle).filter (·.owner ≠ v.owner)).length
  := by
  intro v hv hcard
  obtain ⟨permit, report, hpermit, hcarry⟩ := Ruleset.resolve_ok h
  obtain ⟨hintegrity, hchecked⟩ := Ruleset.permit_ok hpermit
  have hb := Battle.corruption?_eq_none_iff.mp hintegrity
  have hb' := (Ruleset.carryOut_sound hb hcarry).toCoherent
  have hparticipants : rules.participants b action = b.units ++ permit.deployed b := by
    unfold Ruleset.participants
    rw [hpermit]
  obtain ⟨m, hm, hunits, hbalances⟩ :=
    Ruleset.carryOut_balances hmourner hdepth hb.toCoherent hchecked hcarry
  rw [← hparticipants] at hunits
  have hmplain : ∀ u ∈ m.units, u.Plain := by
    intro u hu
    have hmem := hunits.subset hu
    rw [hparticipants] at hmem
    rcases List.mem_append.mp hmem with hmem | hmem
    · apply hplain u hmem
    · cases permit with
      | playUnit player handIndex cell card =>
        obtain rfl := List.mem_singleton.mp hmem
        intro buff hbuff
        cases hbuff
      | _ => cases hmem
  obtain ⟨u, hu, hpersists, hstat⟩ := hbalances.stat_eq hm hb' hmplain hv hcard
  have heliminated := hunits.filter fun u => (resolution.battle.find? u.uid).isNone
  have hcount : ∀ stat, stat ≠ .vitality → (v.stat stat).toInt = (u.stat stat).toInt
      + ((rules.eliminated b action resolution.battle).filter
        fun u => stat.counts v.owner u.owner).length := by
    intro stat hne
    rw [hstat stat hne, (heliminated.filter _).length_eq]
    rfl
  use u, hunits.subset hu, hpersists
  constructor
  · have himpact := hcount .impact (by decide)
    rw [show (fun u : BoardUnit => Stat.impact.counts v.owner u.owner) = fun _ => true from rfl,
      List.filter_true] at himpact
    exact himpact
  · constructor
    · exact hcount .velocity (by decide)
    · exact hcount .defence (by decide)

/-- A card that mourns, and does nothing else. -/
def Card.mourner : Card :=
  { id := "mourner"
    name := "Mourner"
    abilities := [{
      kind := .passive
      rules := [.mourning .onUnitEliminated .impact, .mourning .onAllyEliminated .velocity,
        .mourning .onEnemyEliminated .defence] }] }

/-- The winner of a duel counts the unit that has fallen. -/
theorem eliminations_counted_once_duel :
  let rules : Ruleset := { catalog := ⟨[.mourner], by decide⟩ }
  let attack : Action := .attack 0 ⟨1⟩ ⟨2⟩
  ∃ resolution, rules.resolve .duel attack = .ok resolution
    ∧ (rules.eliminated .duel attack resolution.battle).length = 1
    ∧ ∃ v ∈ resolution.battle.units, v.cardId = Card.mourner.id
    ∧ ∃ u ∈ rules.participants .duel attack, u.Persists v
      ∧ v.impact.toInt = u.impact.toInt
        + (rules.eliminated .duel attack resolution.battle).length
      ∧ v.velocity.toInt = u.velocity.toInt
        + ((rules.eliminated .duel attack resolution.battle).filter (·.owner = v.owner)).length
      ∧ v.defence.toInt = u.defence.toInt
        + ((rules.eliminated .duel attack resolution.battle).filter (·.owner ≠ v.owner)).length
  := by
  intro rules attack
  have hmourner : rules.HasMourner .mourner := by
    constructor
    · apply List.mem_singleton.mpr rfl
    · exact ⟨_, rfl, rfl, .refl _⟩
    · intro card hcard hother
      obtain rfl := List.mem_singleton.mp hcard
      exact absurd rfl hother
  have hplain : ∀ u ∈ Battle.duel.units, u.Plain := by
    have hbuffs : ∀ u ∈ Battle.duel.units, u.buffs = [] := by decide
    intro u hu buff hbuff
    rw [hbuffs u hu] at hbuff
    cases hbuff
  have hresult : (rules.resolve .duel attack).toOption.any fun resolution =>
      (rules.eliminated .duel attack resolution.battle).length = 1
        && resolution.battle.units.any fun v => v.cardId = Card.mourner.id := by
    decide
  cases h : rules.resolve .duel attack with
  | error stop =>
    rw [h] at hresult
    cases hresult
  | ok resolution =>
    rw [h] at hresult
    simp only [Except.toOption, Option.any_some, Bool.and_eq_true, decide_eq_true_eq,
      List.any_eq_true] at hresult
    obtain ⟨hlength, v, hv, hcard⟩ := hresult
    use resolution, rfl, hlength, v, hv, hcard
    apply eliminations_counted_once hmourner (by decide) hplain h v hv hcard

end CardBattle
