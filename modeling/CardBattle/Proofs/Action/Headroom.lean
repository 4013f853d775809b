import CardBattle.Proofs.Action.Frame
import CardBattle.Proofs.Action.Overflow
import CardBattle.Proofs.Battle.InPlace
import CardBattle.Proofs.Cascade.Headroom

/-!
# When no action overflows

Every amount and delta of a card can make an action overflow if it is large enough, and the
action has no result then (`act_overflows`).  Where statistics have room enough, none does: it
is enough that each statistic leaves room for what thirteen eliminations can need, so that
every action has a result as long as there is a turn and a uid left (`act_total`).
-/

namespace CardBattle

open Change

namespace Battle

variable {strain room : Nat} {b b' : Battle}

/-- There are at most twelve units for whose elimination room has to be set aside. -/
theorem hasRoom_of_units (h : ∀ u ∈ b.units, u.HasRoom (13 * eliminationStrain strain)) :
  b.HasRoom strain (eliminationStrain strain)
  := by
  have hlength := Nat.mul_le_mul_left (eliminationStrain strain) b.length_units_le
  intro u hu
  apply (h u hu).mono
  omega

theorem HasRoom.strike (hb : b.Coherent) (hroom : b.HasRoom strain room)
    {attacker target : BoardUnit} {amount : Int32} (htarget : b.find? target.uid = some target)
    (h : Ruleset.strike b attacker target = .ok (b', amount)) :
  b'.HasRoom strain room
  := by
  obtain ⟨hurt, hhurt, hrest⟩ := Ruleset.strike_ok h
  have hendures := (BoardUnit.takeDamage_restats hhurt).endures fun _ =>
    BoardUnit.takeDamage_bounded hhurt
  have hstruck : (b.replace hurt).HasRoom strain room := by
    apply hroom.replace hb htarget hendures.uid
    obtain ⟨v, hv, hkept⟩ := (hroom target (mem_of_find? htarget)).takeDamage amount
    obtain rfl := Except.ok.inj (hhurt.symm.trans hv)
    apply hkept
  obtain ⟨-, rfl⟩ | ⟨u, modifiers, hu, rfl⟩ := hrest
  · apply hstruck
  · have huroom := hstruck u (mem_of_find? hu)
    rw [← find?_uid hu] at hu
    refine hstruck.replace (hb.replace htarget hendures) hu ?_ ?_
    · rfl
    · exact huroom.exerts rfl

end Battle

namespace Ruleset

variable {rules : Ruleset} {strain : Nat} {b : Battle} {player : UInt8}
  (hrules : rules.Strains strain)

include hrules

/-- Broadcasting an event that is not nested and refreshing the auras costs as much as three
events, and does not fail where there is room for that. -/
theorem emitAndRefresh_failsNever (hb : b.Coherent) {event : Event} (hevent : event.depth = 0)
    (first second : Trigger) (hroom : b.HasRoom strain (eliminationStrain strain)) :
  FailsNever (rules.emitAndRefresh event first second b)
  := by
  have hshallow : b.Shallow 12 event.depth := by
    rw [hevent]
    apply hb.shallow
  have hcosts := (emit_costs hrules event b hshallow).andThen fun m hm =>
    refresh_costs hrules (hb.moves (rules.emit_moves _ _ _ hm)) event.player first second
  apply hcosts.failsNever
  apply hroom.mono
  rw [eliminationStrain]
  omega

/-- An attack does not fail where there is room for two events. -/
theorem attackUnit_failsNever (hb : b.Coherent) (attacker target : Uid)
    (hroom : b.HasRoom strain (eliminationStrain strain)) :
  FailsNever (rules.attackUnit player attacker target b)
  := by
  let noted : Battle := { b with firstAttacker := b.firstAttacker <|> some attacker }
  have hnoted : noted.Coherent := hb.congr hb.active rfl rfl rfl
  have hnotedRoom : noted.HasRoom strain (13 * strain + 13 * strain) := by
    have hsame : noted.HasRoom strain (eliminationStrain strain) := hroom.of_units rfl
    apply hsame.mono
    rw [eliminationStrain]
    omega
  have hdeclared := emit_costs hrules (.ofAttack .onAttackDeclare player attacker target) noted
    hnoted.shallow
  apply attackUnit_failsOnly (hdeclared.failsNever (hnotedRoom.mono (by omega)))
  intro m att tgt hm htarget
  have hmroom := hdeclared.hasRoom hnotedRoom hm
  have hm := hnoted.moves (rules.emit_moves _ _ _ hm)
  constructor
  · apply strike_failsOnly
    intro amount
    obtain ⟨v, hv, -⟩ := (hmroom tgt (Battle.mem_of_find? htarget)).takeDamage amount
    rw [hv]
    apply failsOnly_ok
  · intro m₁ amount line hstrike
    have hlogs := m₁.record_logs line
    have hstruck := (hm.strike htarget hstrike).logs hlogs
    have hstruckRoom := (hmroom.strike hm htarget hstrike).of_units hlogs.units_eq
    have hcosts := (emit_costs hrules (.ofAttack .onAttackHit player attacker target) _
      hstruck.shallow).andThen fun m₂ hm₂ =>
        sweep_costs hrules (hstruck.moves (rules.emit_moves _ _ _ hm₂)) (some attacker)
    apply hcosts.failsNever
    exact hstruckRoom

/-- The end of a turn does not fail where there is room for three events and there is another
turn. -/
theorem endTurn_failsNever (hb : b.Coherent) (hturn : b.turn.toNat + 1 < UInt32.size)
    (hroom : b.HasRoom strain (eliminationStrain strain)) :
  FailsNever (rules.endTurn b)
  := by
  let reset : Battle := { b with side0.used := ∅, side1.used := ∅ }
  have hreset : reset.Coherent := hb.congr hb.active rfl rfl rfl
  have hresetRoom : reset.HasRoom strain (eliminationStrain strain) := hroom.of_units rfl
  obtain ⟨m, hm, hmroom⟩ := hresetRoom.changeAll fun _ _ hu => hu.endCycle
  have hmcoherent := hreset.changeAll (fun _ _ => BoardUnit.endCycle_endures) hm
  have hsweep := sweep_costs hrules hmcoherent none
  apply endTurn_failsOnly
  · rw [hm]
    apply failsOnly_ok
  · intro m' hm'
    obtain rfl := Except.ok.inj (hm.symm.trans hm')
    use hsweep.failsNever (hmroom.mono (Nat.zero_le _))
    intro m' hm'
    have hm'room := hsweep.hasRoom hmroom hm'
    have hm'coherent := (sweep_sound hmcoherent hm').toCoherent
    have hturn' : m'.turn = b.turn := by
      rw [(hmcoherent.moves_keep (rules.sweep_moves hm')).turn]
      rw [(Battle.changeAll_eq_ok.mp hm).frame]
    constructor
    · rw [Word.next, hturn', if_pos hturn]
      apply failsOnly_ok
    · intro turn line
      apply emitAndRefresh_failsNever hrules _ rfl
      · exact hm'room.of_units rfl
      · exact hm'coherent.congr (opponentOf_le _) rfl rfl rfl

/-! ### Actions -/

/-- An action that has been checked does not fail where statistics have room enough and there
is a turn and a uid left. -/
theorem carryOut_failsNever (hb : b.Sound)
    (hdealt : ∀ card ∈ rules.catalog.cards, ∀ uid owner cell,
      (BoardUnit.ofCard uid owner cell card).HasRoom (13 * eliminationStrain strain))
    (hunits : ∀ u ∈ b.units, u.HasRoom (13 * eliminationStrain strain))
    (hturn : b.turn.toNat + 1 < UInt32.size) (huids : b.uids.next.toNat + 1 < UInt32.size)
    {permit : Permit} (h : permit.Checked rules b) :
  FailsOnly (Stop.IsFault fun _ => False) (rules.carryOut permit b)
  := by
  have hb := hb.toCoherent
  have hroom := Battle.hasRoom_of_units hunits
  cases permit with
  | playUnit player handIndex cell card =>
    have hcard : card ∈ rules.catalog.cards := by
      obtain ⟨_, _, _, _, hfind, _⟩ := h
      apply List.mem_of_find?_eq_some hfind
    apply playUnit_failsOnly h
    · rw [Word.next, if_pos huids]
      apply failsOnly_ok
    · intro m hm
      apply emitAndRefresh_failsNever hrules (hb.deploys hm) rfl
      apply Battle.hasRoom_of_units
      intro u hu
      rcases List.mem_append.mp (hm.units_perm.subset hu) with hu | hu
      · apply hunits u hu
      · obtain rfl := List.mem_singleton.mp hu
        apply hdealt card hcard
  | move player uid cell =>
    apply moveUnit_failsOnly hb h
    intro m hm
    obtain ⟨m', hrearranges, hm', hlogs⟩ := hb.relocates hm
    apply emitAndRefresh_failsNever hrules (hm'.logs hlogs) rfl
    apply Battle.hasRoom_of_units
    rw [hlogs.units_eq]
    apply hrearranges.forall_units _ hunits
    intro u cell hu
    apply hu.elsewhere
  | attack player attacker target =>
    apply lift_failsOnly
    apply attackUnit_failsNever hrules hb attacker target hroom
  | activate player uid slot target ability =>
    have hability : ∃ card ∈ rules.catalog.cards, ability ∈ card.abilities := by
      obtain ⟨_, _, card, _, _, _, hcard, hability⟩ := h
      exact ⟨card, List.mem_of_find?_eq_some hcard, List.mem_of_find?_eq_some hability⟩
    obtain ⟨card, hcard, hability⟩ := hability
    apply activate_failsOnly h
    intro m hpaid
    have hm := hb.touches (fun _ _ => False.elim) hpaid
    have hmunits := hb.touches_forall (fun _ _ => False.elim) (fun _ _ => False.elim)
      (fun _ cell hu => hu.elsewhere cell) hunits hpaid
    have hmroom : m.HasRoom strain strain := by
      apply (Battle.hasRoom_of_units hmunits).mono
      rw [eliminationStrain]
      omega
    apply Costs.failsNever _ hmroom
    apply runActivation_costs hrules hcard hability hm.shallow
  | endTurn =>
    apply lift_failsOnly
    apply endTurn_failsNever hrules hb hturn hroom

end Ruleset

/-- Where the cards strain statistics by no more than a bound for one trigger, and every
statistic leaves room for what thirteen eliminations can need then, no action stops with a
fault: it is rejected and changes nothing, or it has a result. -/
theorem act_total {rules : Ruleset} {strain : Nat} {b : Battle} (hrules : rules.Strains strain)
    (hdealt : ∀ card ∈ rules.catalog.cards, ∀ uid owner cell,
      (BoardUnit.ofCard uid owner cell card).HasRoom (13 * eliminationStrain strain))
    (hunits : ∀ u ∈ b.units, u.HasRoom (13 * eliminationStrain strain))
    (hturn : b.turn.toNat + 1 < UInt32.size) (huids : b.uids.next.toNat + 1 < UInt32.size)
    (action : Action) :
  (∃ rejection, rules.resolve b action = .error (.rejected rejection)
    ∧ rules.act b action = .ok b)
  ∨ ∃ resolution, rules.resolve b action = .ok resolution
    ∧ rules.act b action = .ok resolution.battle
  := by
  cases hpermit : rules.permit b action with
  | error rejection =>
    left
    have hresolve : rules.resolve b action = .error (.rejected rejection) := by
      rw [Ruleset.resolve, hpermit]
      rfl
    use rejection, hresolve
    rw [Ruleset.act, hresolve]
  | ok permit =>
    right
    obtain ⟨hintegrity, hchecked⟩ := Ruleset.permit_ok hpermit
    have hb := Battle.corruption?_eq_none_iff.mp hintegrity
    have hfails : FailsOnly (Stop.IsFault fun _ => False) (rules.resolve b action) := by
      refine failsOnly_bind_of_ok (lift_rejection_eq_ok.mpr hpermit) ?_
      apply (Ruleset.carryOut_failsNever hrules hb hdealt hunits hturn huids hchecked).bind
      rintro ⟨battle, report⟩ _
      apply failsOnly_ok
    cases hresolve : rules.resolve b action with
    | ok resolution =>
      use resolution, rfl
      rw [Ruleset.act, hresolve]
    | error stop =>
      obtain ⟨fault, hnever, -⟩ := hfails stop hresolve
      exact hnever.elim

/-- A card whose unit heals itself when a unit moves. -/
def Card.wanderer (amount : Int32) : Card :=
  { id := "wanderer"
    name := "Wanderer"
    stats := { vitality := 5 }
    abilities := [{
      kind := .passive
      rules := [{ trigger := .onUnitMove, script := [.heal .self amount] }] }] }

/-- A battle with a wanderer that has lost some vitality. -/
def Battle.journey (amount : Int32) : Battle :=
  { start 1 with
    side0.board := ⟨[some { BoardUnit.ofCard ⟨1⟩ 0 ⟨.front, 0⟩ (.wanderer amount) with
      vitality := 3 }, none, none, none, none, none], rfl⟩
    uids := ⟨2⟩ }

/-- A wanderer that heals itself by a little has room enough, and recovers when it moves. -/
theorem act_total_journey :
  let rules : Ruleset := { catalog := ⟨[.wanderer 4], by decide⟩ }
  let b : Battle := .journey 4
  let action : Action := .move 0 ⟨1⟩ ⟨.back, 0⟩
  rules.Strains 4 ∧ ∃ resolution, rules.resolve b action = .ok resolution
    ∧ rules.act b action = .ok resolution.battle
    ∧ (resolution.battle.find? ⟨1⟩).map BoardUnit.vitality = some 5
  := by
  intro rules b action
  have hstrains : rules.Strains 4 := by
    intro card hcard trigger
    obtain rfl := List.mem_singleton.mp hcard
    cases trigger <;> decide
  have hwanderer : (BoardUnit.ofCard ⟨1⟩ 0 ⟨.front, 0⟩ (.wanderer 4)).HasRoom
      (13 * eliminationStrain 4) := by
    use ⟨by decide, by decide⟩
    intro stat
    cases stat <;> decide
  have hdealt : ∀ card ∈ rules.catalog.cards, ∀ uid owner cell,
      (BoardUnit.ofCard uid owner cell card).HasRoom (13 * eliminationStrain 4) := by
    intro card hcard uid owner cell
    obtain rfl := List.mem_singleton.mp hcard
    exact hwanderer.congr rfl rfl rfl rfl rfl rfl
  have hunits : ∀ u ∈ b.units, u.HasRoom (13 * eliminationStrain 4) := by
    intro u hu
    obtain rfl := List.mem_singleton.mp hu
    exact hwanderer.withRange rfl ⟨by decide, by decide⟩
  have hresult : (rules.resolve b action).toOption.any fun resolution =>
      (resolution.battle.find? ⟨1⟩).map BoardUnit.vitality = some 5 := by decide +kernel
  use hstrains
  obtain ⟨rejection, hresolve, -⟩ | ⟨resolution, hresolve, hact⟩ :=
    act_total hstrains hdealt hunits (by decide) (by decide) action
  · rw [hresolve] at hresult
    contradiction
  · rw [hresolve] at hresult
    exact ⟨resolution, hresolve, hact, of_decide_eq_true hresult⟩

/-- A wanderer that would heal itself by the greatest amount stops the action when it moves,
though nothing is wrong with the battle and the move is allowed. -/
theorem act_overflows :
  let rules : Ruleset := { catalog := ⟨[.wanderer 2147483647], by decide⟩ }
  let b : Battle := .journey 2147483647
  let action : Action := .move 0 ⟨1⟩ ⟨.back, 0⟩
  b.corruption? = none ∧ b.turn.toNat + 1 < UInt32.size ∧ b.uids.next.toNat + 1 < UInt32.size
    ∧ rules.validate b action = .ok ()
    ∧ rules.resolve b action = .error (.fault (.overflow .add))
    ∧ rules.act b action = .error (.overflow .add)
  := by decide +kernel

end CardBattle
