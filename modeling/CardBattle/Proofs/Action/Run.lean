import CardBattle.Proofs.Action.Frame
import CardBattle.Proofs.Action.Permit

/-!
# Runs of accepted actions

A run is a sequence of accepted actions, each with the battle in which it is taken.  A uid is
spent once no unit of it can attack before the turn ends, because the unit has attacked or has
left the boards for good.  No action that leaves the turn going makes a spent uid fit to
attack again, and an attack spends its attacker unless it is forestalled: its own declaration
takes the target off the board and leaves the attacker.  Hence of the attacks of one unit
in a turn all but the last are forestalled (`attacks_but_last_forestalled`).
-/

namespace CardBattle

open Change

namespace Action

/-- Whether the action is an attack by the unit of a uid. -/
def isAttackBy (uid : Uid) : Action → Bool
  | .attack _ attacker _ => attacker = uid
  | _ => false

/-- Whether the action ends the turn. -/
def endsTurn : Action → Bool
  | .endTurn _ => true
  | _ => false

end Action

namespace Ruleset

/-- Accepted actions one after another, each with the battle in which it is taken. -/
inductive Run (rules : Ruleset) : Battle → List (Battle × Action) → Battle → Prop
  | nil (b : Battle) : Run rules b [] b
  | cons {b b' : Battle} {action : Action} {resolution : Resolution}
      {steps : List (Battle × Action)} (h : rules.resolve b action = .ok resolution)
      (hrest : Run rules resolution.battle steps b') : Run rules b ((b, action) :: steps) b'

/-- The declaration of an attack takes the target off the board and leaves the attacker. -/
def Forestalls (rules : Ruleset) (b : Battle) : Action → Prop
  | .attack player attacker target =>
      ∃ m, (rules.emit (.ofAttack .onAttackDeclare player attacker target)).Leads
          { b with firstAttacker := b.firstAttacker <|> some attacker } m
        ∧ (m.find? attacker).isSome ∧ m.find? target = none
  | _ => False

variable {rules : Ruleset} {b b' : Battle}

/-- A run goes through a battle after any of its beginnings. -/
theorem Run.split {before after : List (Battle × Action)}
    (h : rules.Run b (before ++ after) b') :
  ∃ m, rules.Run b before m ∧ rules.Run m after b'
  := by
  induction before generalizing b with
  | nil => use b, .nil b, h
  | cons step before ih =>
    cases h with
    | cons hstep hrest =>
      obtain ⟨m, hbefore, hafter⟩ := ih hrest
      use m, .cons hstep hbefore, hafter

/-- Where an action is accepted, the uid of every unit has been issued. -/
theorem resolve_issued {action : Action} {resolution : Resolution}
    (h : rules.resolve b action = .ok resolution) {uid : Uid} {u : BoardUnit}
    (hu : b.find? uid = some u) :
  b.uids.hasIssued uid
  := by
  obtain ⟨permit, report, hpermit, -⟩ := resolve_ok h
  have hb := (Battle.corruption?_eq_none_iff.mp (permit_ok hpermit).1).toCoherent
  rw [← Battle.find?_uid hu]
  exact (hb.fit u (Battle.mem_of_find? hu)).issued

end Ruleset

/-! ### Uids that are spent -/

namespace Battle

/-- The uid has been issued, and a unit that has it has attacked. -/
structure Spent (uid : Uid) (b : Battle) : Prop where
  issued : b.uids.hasIssued uid
  attacked : ∀ u ∈ b.units, u.uid = uid → u.hasAttacked

variable {b b' : Battle} {uid : Uid} {u v : BoardUnit}

/-- What keeps account of the turn leaves a spent uid spent. -/
theorem Keeps.spent (h : b.Keeps b') (hspent : b.Spent uid) :
  b'.Spent uid
  := by
  constructor
  · rw [h.uids]
    apply hspent.issued
  · intro v hv huid
    obtain ⟨u, hu, huv⟩ := h.units v hv
    rw [huv.hasAttacked]
    apply hspent.attacked u hu
    rw [← huv.uid, huid]

/-- A uid stays spent when a unit is replaced that has attacked if it is of this uid. -/
theorem Coherent.replace_spent (hb : b.Coherent) (hu : b.find? u.uid = some u)
    (huid : v.uid = u.uid) (hv : u.uid = uid → u.hasAttacked → v.hasAttacked)
    (hspent : b.Spent uid) :
  (b.replace v).Spent uid
  := by
  constructor
  · rw [replace_uids]
    apply hspent.issued
  · intro w hw hwuid
    obtain rfl | ⟨hw, -⟩ := hb.mem_replace hu huid hw
    · rw [huid] at hwuid
      apply hv hwuid
      apply hspent.attacked u (mem_of_find? hu) hwuid
    · apply hspent.attacked w hw hwuid

/-- A uid stays spent when a unit is deployed, which has another. -/
theorem Deploys.spent {player : UInt8} {handIndex : UInt64} {cell : Cell} {card : Card}
    (h : b.Deploys player handIndex cell card b') (hspent : b.Spent uid) :
  b'.Spent uid
  := by
  use h.hasIssued hspent.issued
  intro u hu huid
  rcases List.mem_append.mp (h.units_perm.subset hu) with hu | hu
  · apply hspent.attacked u hu huid
  · obtain rfl := List.mem_singleton.mp hu
    exact absurd huid.symm (UidCounter.ne_of_hasIssued hspent.issued)

/-- A uid stays spent in a strike. -/
theorem Coherent.strike_spent (hb : b.Coherent) {attacker target : BoardUnit} {amount : Int32}
    (htarget : b.find? target.uid = some target)
    (h : Ruleset.strike b attacker target = .ok (b', amount)) (hspent : b.Spent uid) :
  b'.Spent uid
  := by
  obtain ⟨hurt, hhurt, hrest⟩ := Ruleset.strike_ok h
  have hkeeps := (BoardUnit.takeDamage_restats hhurt).keeps
  have hstruck : (b.replace hurt).Spent uid := by
    apply hb.replace_spent htarget hkeeps.uid _ hspent
    intro _ hattacked
    rw [hkeeps.hasAttacked, hattacked]
  obtain ⟨-, rfl⟩ | ⟨u, modifiers, hu, rfl⟩ := hrest
  · apply hstruck
  · have hcoherent := hb.replace htarget (BoardUnit.Engages.hurt hhurt).endures
    rw [← find?_uid hu] at hu
    apply hcoherent.replace_spent hu _ _ hstruck
    · rfl
    · intro _ _
      rfl

/-- A strike spends the attacker. -/
theorem Coherent.strike_spends (hb : b.Coherent) {attacker target : BoardUnit} {amount : Int32}
    (hattacker : b.find? attacker.uid = some attacker)
    (htarget : b.find? target.uid = some target)
    (h : Ruleset.strike b attacker target = .ok (b', amount)) :
  b'.Spent attacker.uid
  := by
  obtain ⟨hurt, hhurt, hrest⟩ := Ruleset.strike_ok h
  have hissued := (hb.fit attacker (mem_of_find? hattacker)).issued
  obtain ⟨hnone, rfl⟩ | ⟨u, modifiers, hu, rfl⟩ := hrest
  · constructor
    · rw [replace_uids]
      apply hissued
    · intro w hw hwuid
      exact absurd hwuid (uid_ne_of_find? hnone hw)
  · have hcoherent := hb.replace htarget (BoardUnit.Engages.hurt hhurt).endures
    have huid := find?_uid hu
    rw [← huid] at hu
    constructor
    · simp only [replace_uids]
      apply hissued
    · intro w hw hwuid
      obtain rfl | ⟨-, hne⟩ := hcoherent.mem_replace hu (by rfl) hw
      · rfl
      · exact absurd (hwuid.trans huid.symm) hne

/-- A uid stays spent when the use of an ability is noted. -/
theorem Coherent.uses_spent (hb : b.Coherent) {player : UInt8} {unit : Uid} {slot : UInt8}
    {ability : Ability} (h : b.Uses player unit slot ability b') (hspent : b.Spent uid) :
  b'.Spent uid
  := by
  obtain ⟨side, m, hside, rfl, hrest⟩ := h
  have hunits : (b.setSide player (side.markUsed ⟨unit, slot⟩)).units = b.units :=
    units_shift hside rfl
  have hnoted : (b.setSide player (side.markUsed ⟨unit, slot⟩)).Spent uid := by
    constructor
    · rw [setSide_uids]
      apply hspent.issued
    · rw [hunits]
      apply hspent.attacked
  obtain ⟨-, rfl⟩ | ⟨u, hu, rfl⟩ := hrest
  · apply hnoted
  · have hmarked := hb.shift (s := side.markUsed ⟨unit, slot⟩) hside rfl
    obtain rfl := find?_uid hu
    apply hmarked.replace_spent hu _ _ hnoted
    · rfl
    · intro _ hattacked
      apply hattacked

end Battle

/-! ### What accepted actions spend -/

namespace Ruleset

variable {rules : Ruleset} {b b' : Battle} {uid : Uid} {action : Action}
  {resolution : Resolution}

/-- A uid stays spent in an attack. -/
theorem attackUnit_spent (hb : b.Coherent) {player : UInt8} {attacker target : Uid}
    (h : (rules.attackUnit player attacker target).Leads b b') (hspent : b.Spent uid) :
  b'.Spent uid
  := by
  obtain ⟨m, -, hm, hdeclared, hrest⟩ := attackUnit_keeps hb h
  have hspent : m.Spent uid := hdeclared.spent ⟨hspent.issued, hspent.attacked⟩
  obtain ⟨-, hkeeps⟩ | ⟨att, tgt, m₁, amount, -, htgt, hstrike, hkeeps⟩ := hrest
  · apply hkeeps.spent hspent
  · apply hkeeps.spent (hm.strike_spent htgt hstrike hspent)

/-- A uid stays spent as long as the turn goes on. -/
theorem resolve_spent (haction : ¬action.endsTurn) (h : rules.resolve b action = .ok resolution)
    (hspent : b.Spent uid) :
  resolution.battle.Spent uid
  := by
  obtain ⟨permit, report, hpermit, hcarry⟩ := resolve_ok h
  have hgrants := permit_grants hpermit
  have hb := (Battle.corruption?_eq_none_iff.mp (permit_ok hpermit).1).toCoherent
  cases permit with
  | playUnit player handIndex cell card =>
    obtain ⟨m, hdeploys, hkeeps⟩ := playUnit_keeps hb hcarry
    apply hkeeps.spent (hdeploys.spent hspent)
  | move player unit cell => apply (moveUnit_keeps hb hcarry).spent hspent
  | attack player attacker target =>
    apply attackUnit_spent hb ⟨report, lift_fault_eq_ok.mp hcarry⟩ hspent
  | activate player unit slot target ability =>
    obtain ⟨m, hkeeps, hm, huses⟩ := activate_keeps hb hcarry
    apply hm.uses_spent huses (hkeeps.spent hspent)
  | endTurn =>
    obtain ⟨player, rfl⟩ := hgrants
    exact absurd rfl haction

/-- An attack that is accepted spends the attacker unless it is forestalled. -/
theorem resolve_spends {player : UInt8} {attacker target : Uid}
    (h : rules.resolve b (.attack player attacker target) = .ok resolution)
    (hfree : ¬rules.Forestalls b (.attack player attacker target)) :
  resolution.battle.Spent attacker
  := by
  obtain ⟨permit, report, hpermit, hcarry⟩ := resolve_ok h
  have hgrants := permit_grants hpermit
  obtain ⟨hintegrity, hchecked⟩ := permit_ok hpermit
  have hb := (Battle.corruption?_eq_none_iff.mp hintegrity).toCoherent
  cases permit with
  | attack player attacker target =>
    cases hgrants
    obtain ⟨u, hu, -⟩ := hchecked
    have hissued := (hb.fit u (Battle.mem_of_find? hu)).issued
    rw [Battle.find?_uid hu] at hissued
    obtain ⟨m, hdeclare, hm, hdeclared, hrest⟩ :=
      attackUnit_keeps hb ⟨report, lift_fault_eq_ok.mp hcarry⟩
    obtain ⟨hgone, hkeeps⟩ | ⟨att, tgt, m₁, amount, hatt, htgt, hstrike, hkeeps⟩ := hrest
    · apply hkeeps.spent
      have hnone : m.find? attacker = none := by
        by_contra hsome
        apply hfree
        use m, hdeclare, Option.isSome_iff_ne_none.mpr hsome, hgone.resolve_left hsome
      constructor
      · rw [hdeclared.uids]
        apply hissued
      · intro v hv huid
        exact absurd huid (Battle.uid_ne_of_find? hnone hv)
    · obtain rfl := Battle.find?_uid hatt
      apply hkeeps.spent (hm.strike_spends hatt htgt hstrike)
  | playUnit player handIndex cell card => cases hgrants
  | move player uid cell => cases hgrants
  | activate player uid slot target ability => cases hgrants
  | endTurn =>
    obtain ⟨_, hgrants⟩ := hgrants
    cases hgrants

/-- No unit of a spent uid attacks. -/
theorem not_attack_of_spent (hspent : b.Spent uid)
    (h : rules.resolve b action = .ok resolution) :
  ¬action.isAttackBy uid
  := by
  obtain ⟨permit, report, hpermit, -⟩ := resolve_ok h
  have hgrants := permit_grants hpermit
  have hchecked := (permit_ok hpermit).2
  intro hattack
  cases permit with
  | attack player attacker target =>
    cases hgrants
    obtain ⟨u, hu, -, hfresh, -⟩ := hchecked
    apply hfresh
    apply hspent.attacked u (Battle.mem_of_find? hu)
    rw [Battle.find?_uid hu]
    simpa [Action.isAttackBy] using hattack
  | playUnit player handIndex cell card =>
    cases hgrants
    cases hattack
  | move player unit cell =>
    cases hgrants
    cases hattack
  | activate player unit slot target ability =>
    cases hgrants
    cases hattack
  | endTurn =>
    obtain ⟨_, rfl⟩ := hgrants
    cases hattack

/-! ### The attacks of a turn -/

variable {steps : List (Battle × Action)}

/-- As long as the turn goes on, no unit of a spent uid attacks. -/
theorem Run.attacks_of_spent (h : rules.Run b steps b')
    (hsteps : ∀ step ∈ steps, ¬step.2.endsTurn) (hspent : b.Spent uid) :
  steps.filter (·.2.isAttackBy uid) = []
  := by
  induction h with
  | nil => rfl
  | cons h hrest ih =>
    have haction := hsteps _ List.mem_cons_self
    rw [List.filter_cons, if_neg (not_attack_of_spent hspent h)]
    apply ih
    · intro step hstep
      apply hsteps step (List.mem_cons_of_mem _ hstep)
    · apply resolve_spent haction h hspent

/-- As long as the turn goes on, all attacks of a unit but the last are forestalled. -/
theorem Run.attacks_forestalled (h : rules.Run b steps b')
    (hsteps : ∀ step ∈ steps, ¬step.2.endsTurn) (uid : Uid) :
  ∀ step ∈ (steps.filter (·.2.isAttackBy uid)).dropLast, rules.Forestalls step.1 step.2
  := by
  induction h with
  | nil => simp
  | @cons b b' action resolution steps h hrest ih =>
    have hrest' : ∀ step ∈ steps, ¬step.2.endsTurn := by
      intro step hstep
      apply hsteps step (List.mem_cons_of_mem _ hstep)
    by_cases hattack : action.isAttackBy uid
    · rw [List.filter_cons, if_pos hattack]
      by_cases hforestalls : rules.Forestalls b action
      · cases hlater : steps.filter (·.2.isAttackBy uid) with
        | nil => simp
        | cons next later =>
          rw [hlater] at ih
          rw [List.dropLast_cons_cons]
          intro step hstep
          rcases List.mem_cons.mp hstep with rfl | hstep
          · apply hforestalls
          · apply ih hrest' step hstep
      · cases action with
        | attack player attacker target =>
          obtain rfl : attacker = uid := by simpa [Action.isAttackBy] using hattack
          rw [hrest.attacks_of_spent hrest' (resolve_spends h hforestalls)]
          simp
        | _ => cases hattack
    · rw [List.filter_cons, if_neg hattack]
      apply ih hrest'

end Ruleset

/-- In a run of accepted actions, and as long as a turn goes on in it, all attacks of a unit
but the last are forestalled.  A unit none of whose attacks is forestalled attacks at most
once. -/
theorem attacks_but_last_forestalled {rules : Ruleset} {b b' : Battle}
    {before turn after : List (Battle × Action)} (h : rules.Run b (before ++ turn ++ after) b')
    (hturn : ∀ step ∈ turn, ¬step.2.endsTurn) (uid : Uid) :
  (∀ step ∈ (turn.filter (·.2.isAttackBy uid)).dropLast, rules.Forestalls step.1 step.2)
  ∧ ((∀ step ∈ turn, step.2.isAttackBy uid → ¬rules.Forestalls step.1 step.2) →
    turn.countP (·.2.isAttackBy uid) ≤ 1)
  := by
  obtain ⟨_, hrun, -⟩ := h.split
  obtain ⟨_, -, hrun⟩ := hrun.split
  have hforestalled := hrun.attacks_forestalled hturn uid
  use hforestalled
  intro hfree
  rw [List.countP_eq_length_filter]
  cases hattacks : turn.filter (·.2.isAttackBy uid) with
  | nil => simp
  | cons first later =>
    have hfirst : first ∈ turn.filter (·.2.isAttackBy uid) := by simp [hattacks]
    obtain ⟨hmem, hattack⟩ := List.mem_filter.mp hfirst
    cases later with
    | nil => simp
    | cons second later =>
      -- The first of two attacks would be forestalled.
      exfalso
      apply hfree first hmem hattack
      apply hforestalled first
      rw [hattacks, List.dropLast_cons_cons]
      apply List.mem_cons_self

/-- A card that takes the life of whatever its unit is about to attack. -/
def Card.headsman : Card :=
  { id := "headsman"
    name := "Headsman"
    abilities := [{
      kind := .passive
      rules := [{
        trigger := .onAttackDeclare
        condition := some .selfIsSource
        script := [.damage .target 99] }] }] }

/-- A battle in which a headsman faces two units. -/
def Battle.execution : Battle :=
  { Battle.duel with
    side0.board := ⟨[some {
      uid := ⟨1⟩, cardId := "headsman", owner := 0, cell := ⟨.front, 0⟩, vitality := 3,
      vitalityMax := 3, impact := 2, defence := 0, velocity := 1 },
      none, none, none, none, none], rfl⟩
    side1.board := ⟨[some {
      uid := ⟨2⟩, cardId := "scout", owner := 1, cell := ⟨.front, 0⟩, vitality := 1,
      vitalityMax := 1, impact := 1, defence := 0, velocity := 2 },
      some {
      uid := ⟨3⟩, cardId := "scout", owner := 1, cell := ⟨.front, 1⟩, vitality := 1,
      vitalityMax := 1, impact := 1, defence := 0, velocity := 2 },
      none, none, none, none], rfl⟩
    uids := ⟨4⟩ }

theorem run_execution :
  let rules : Ruleset := { catalog := ⟨[.headsman], by decide⟩ }
  ∃ m b', rules.Run .execution [(.execution, .attack 0 ⟨1⟩ ⟨2⟩), (m, .attack 0 ⟨1⟩ ⟨3⟩)] b'
  := by
  intro rules
  have haccepted : (rules.resolve .execution (.attack 0 ⟨1⟩ ⟨2⟩)).toOption.any fun first =>
      (rules.resolve first.battle (.attack 0 ⟨1⟩ ⟨3⟩)).isOk := by
    decide +kernel
  cases hfirst : rules.resolve .execution (.attack 0 ⟨1⟩ ⟨2⟩) with
  | error stop =>
    rw [hfirst] at haccepted
    cases haccepted
  | ok first =>
    rw [hfirst] at haccepted
    cases hsecond : rules.resolve first.battle (.attack 0 ⟨1⟩ ⟨3⟩) with
    | error stop =>
      simp [Except.toOption, hsecond, Except.isOk, Except.toBool] at haccepted
    | ok second => use first.battle, second.battle, .cons hfirst (.cons hsecond (.nil _))

/-- A headsman can attack again in the turn in which its first attack was forestalled. -/
theorem attacked_twice_execution :
  ∃ (rules : Ruleset) (steps : List (Battle × Action)) (b' : Battle),
    Battle.execution.corruption? = none ∧ rules.Run .execution steps b'
      ∧ (∀ step ∈ steps, ¬step.2.endsTurn) ∧ steps.countP (·.2.isAttackBy ⟨1⟩) = 2
  := by
  obtain ⟨m, b', hrun⟩ := run_execution
  refine ⟨_, _, b', by decide, hrun, ?_, rfl⟩
  simp [Action.endsTurn]

/-- The first of two attacks of a headsman is forestalled; in a duel without abilities, a unit
attacks at most once. -/
theorem attacks_but_last_forestalled_execution :
  let rules : Ruleset := { catalog := ⟨[.headsman], by decide⟩ }
  let plain : Ruleset := { catalog := ⟨[], List.nodup_nil⟩ }
  (∃ m b', rules.Run .execution
      [(.execution, .attack 0 ⟨1⟩ ⟨2⟩), (m, .attack 0 ⟨1⟩ ⟨3⟩)] b'
    ∧ rules.Forestalls .execution (.attack 0 ⟨1⟩ ⟨2⟩))
  ∧ ∃ b', plain.Run .duel [(.duel, .attack 0 ⟨1⟩ ⟨2⟩)] b'
    ∧ [(Battle.duel, Action.attack 0 ⟨1⟩ ⟨2⟩)].countP (·.2.isAttackBy ⟨1⟩) ≤ 1
  := by
  intro rules plain
  constructor
  · obtain ⟨m, b', hrun⟩ := run_execution
    use m, b', hrun
    let turn := [(Battle.execution, Action.attack 0 ⟨1⟩ ⟨2⟩), (m, .attack 0 ⟨1⟩ ⟨3⟩)]
    have hrun : rules.Run .execution ([] ++ turn ++ []) b' := hrun
    have hturn : ∀ step ∈ turn, ¬step.2.endsTurn := by simp [turn, Action.endsTurn]
    apply (attacks_but_last_forestalled hrun hturn ⟨1⟩).1 (_, _)
    apply List.mem_cons_self
  · have haccepted : (plain.resolve .duel (.attack 0 ⟨1⟩ ⟨2⟩)).isOk := by decide
    have hstays : (plain.emit (.ofAttack .onAttackDeclare 0 ⟨1⟩ ⟨2⟩)
        { Battle.duel with firstAttacker := some ⟨1⟩ }).toOption.all fun result =>
          (result.1.find? ⟨2⟩).isSome := by
      decide
    cases h : plain.resolve .duel (.attack 0 ⟨1⟩ ⟨2⟩) with
    | error stop =>
      rw [h] at haccepted
      cases haccepted
    | ok resolution =>
      use resolution.battle, .cons h (.nil _)
      let turn := [(Battle.duel, Action.attack 0 ⟨1⟩ ⟨2⟩)]
      have hrun : plain.Run .duel ([] ++ turn ++ []) resolution.battle := .cons h (.nil _)
      have hturn : ∀ step ∈ turn, ¬step.2.endsTurn := by simp [turn, Action.endsTurn]
      apply (attacks_but_last_forestalled hrun hturn ⟨1⟩).2
      intro step hstep _
      obtain rfl := List.mem_singleton.mp hstep
      rintro ⟨m, ⟨r, hdeclare⟩, -, hgone⟩
      have hdeclare : plain.emit (.ofAttack .onAttackDeclare 0 ⟨1⟩ ⟨2⟩)
          { Battle.duel with firstAttacker := some ⟨1⟩ } = .ok (m, r) := hdeclare
      rw [hdeclare] at hstays
      simp [Except.toOption, hgone] at hstays

end CardBattle
