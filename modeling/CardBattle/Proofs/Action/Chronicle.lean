import CardBattle.Proofs.Action.Accounts
import CardBattle.Proofs.Cascade.Chronicle

/-!
# Actions and the choices that they leave pending

Every action writes a line of its own, before or after whatever comes of the events, refreshes
and sweeps that it causes.  As these are faithful, an action leaves pending just those choices
that its lines are about, in their order (`pending_recounted`).
-/

namespace CardBattle

open Change
open PendingChoice (ofLine?_of_underscore ofLine?_playerText)

/-- The log has grown by one line at least, and the choices are those that its new lines are
about. -/
structure Battle.Narrates (choices : List PendingChoice) (b b' : Battle) : Prop where
  tells : b.Tells choices b'
  grows : b.log.length < b'.log.length

/-- An action narrates that writes a line between two of its parts. -/
theorem Battle.Tells.narrates {b m m' b' : Battle} {choices choices' all : List PendingChoice}
    {line : String} (h : b.Tells choices m) (hline : PendingChoice.ofLine? line = none)
    (hm : m'.log = m.log ++ [line]) (h' : m'.Tells choices' b') (hall : all = choices ++ choices') :
  b.Narrates all b'
  := by
  have htold : m.Tells [] m' := ⟨[line], hm, by simp [hline]⟩
  subst hall
  constructor
  · apply h.trans (htold.trans h')
  · have hbefore := h.length_le
    have hafter := h'.length_le
    rw [hm, List.length_append, List.length_singleton] at hafter
    omega

namespace Ruleset

variable {rules : Ruleset} {b b' : Battle} {player : UInt8} {r : Report}

theorem emitAndRefresh_faithful (event : Event) (first second : Trigger) :
  (rules.emitAndRefresh event first second).Faithful
  := (rules.emit_faithful event).andThen (rules.refresh_faithful event.player first second)

theorem settle_tells {side : Side} {u : BoardUnit} (h : settle b player side u = .ok b') :
  b.Tells [] b'
  := by
  obtain ⟨i, board, -, -, rfl⟩ := settle_ok h
  apply Battle.tells_of_log_eq (Battle.log_setSide _ _ _)

theorem playUnit_narrates {handIndex : UInt64} {cell : Cell} {card : Card}
    (h : rules.playUnit player handIndex cell card b = .ok (b', r)) :
  b.Narrates r.pending b'
  := by
  obtain ⟨⟨uid, uids⟩, -, h⟩ := bind_eq_ok.mp h
  obtain ⟨side, -, h⟩ := bind_eq_ok.mp h
  obtain ⟨side', -, h⟩ := bind_eq_ok.mp h
  obtain ⟨m, hsettle, h⟩ := bind_eq_ok.mp h
  have hsettled := settle_tells (lift_rejection_eq_ok.mp hsettle)
  have hrest := emitAndRefresh_faithful _ _ _ _ _ _ (lift_fault_eq_ok.mp h)
  apply Battle.Tells.narrates (b := b) hsettled _ rfl hrest rfl
  simp only [String.append_assoc]
  apply ofLine?_playerText
  · simp
  · simp

theorem moveUnit_narrates {uid : Uid} {cell : Cell}
    (h : rules.moveUnit player uid cell b = .ok (b', r)) :
  b.Narrates r.pending b'
  := by
  obtain ⟨side, -, h⟩ := bind_eq_ok.mp h
  split at h
  · cases h
  · obtain ⟨m, hsettle, h⟩ := bind_eq_ok.mp h
    have hsettled := settle_tells (lift_rejection_eq_ok.mp hsettle)
    have hrest := emitAndRefresh_faithful _ _ _ _ _ _ (lift_fault_eq_ok.mp h)
    apply hsettled.narrates _ rfl hrest rfl
    apply ofLine?_of_underscore
    simp

/-- A strike writes no line. -/
theorem strike_log {attacker target : BoardUnit} {amount : Int32}
    (h : strike b attacker target = .ok (b', amount)) :
  b'.log = b.log
  := by
  obtain ⟨hurt, -, ⟨-, rfl⟩ | ⟨u, modifiers, -, rfl⟩⟩ := strike_ok h
  · apply Battle.log_replace
  · rw [Battle.log_replace, Battle.log_replace]

theorem strike_tells {attacker target : BoardUnit} {amount : Int32}
    (h : strike b attacker target = .ok (b', amount)) :
  b.Tells [] b'
  := Battle.tells_of_log_eq (strike_log h)

/-- The choices that the declaration of an attack leaves pending come first. -/
theorem attackUnit_narrates {attacker target : Uid}
    (h : rules.attackUnit player attacker target b = .ok (b', r)) :
  b.Narrates r.pending b'
  := by
  obtain ⟨⟨m, s⟩, hdeclare, h⟩ := bind_eq_ok.mp h
  have hemitted := rules.emit_faithful _ _ _ _ hdeclare
  have hdeclared : b.Tells s.pending m := hemitted
  dsimp only at h
  split at h
  · obtain ⟨⟨m₁, amount⟩, hstrike, h⟩ := bind_eq_ok.mp h
    obtain ⟨⟨m₂, t⟩, hafter, h⟩ := bind_eq_ok.mp h
    obtain ⟨rfl, rfl⟩ := Prod.mk.inj (pure_eq_ok.mp h)
    have haftermath := (rules.emit_faithful _).andThen (rules.sweep_faithful _ _) _ _ _ hafter
    apply (hdeclared.trans (strike_tells hstrike)).narrates _ rfl haftermath
    · rw [List.append_nil]
      rfl
    · apply ofLine?_of_underscore
      simp [strikeLine]
  · obtain ⟨rfl, rfl⟩ := Prod.mk.inj (pure_eq_ok.mp h)
    apply hdeclared.narrates _ rfl (Battle.tells_of_log_eq rfl)
    · rw [List.append_nil]
    · apply ofLine?_of_underscore
      simp

/-- The cards that an ability costs are discarded with lines of their own. -/
theorem activate_narrates {uid : Uid} {slot : UInt8} {target : Option Uid} {ability : Ability}
    (h : rules.activate player uid slot target ability b = .ok (b', r)) :
  b.Narrates r.pending b'
  := by
  obtain ⟨side, -, h⟩ := bind_eq_ok.mp h
  obtain ⟨⟨m, s⟩, hrun, h⟩ := bind_eq_ok.mp h
  obtain ⟨side', -, h⟩ := bind_eq_ok.mp h
  have hran := rules.runActivation_faithful _ _ _ _ _ _ (lift_fault_eq_ok.mp hrun)
  have hused : m.Tells [] b' ∧ r = s := by
    dsimp only at h
    split at h
    · obtain ⟨rfl, rfl⟩ := Prod.mk.inj (pure_eq_ok.mp h)
      refine ⟨Battle.tells_of_log_eq ?_, rfl⟩
      rw [Battle.log_replace, Battle.log_setSide]
    · obtain ⟨rfl, rfl⟩ := Prod.mk.inj (pure_eq_ok.mp h)
      exact ⟨Battle.tells_of_log_eq (Battle.log_setSide _ _ _), rfl⟩
  obtain ⟨hused, rfl⟩ := hused
  apply (Battle.tells_of_log_eq (b.log_setSide player _)).narrates _ rfl
    ((Battle.tells_foldl_record _).trans (hran.trans hused))
  · simp
  · simp only [String.append_assoc]
    apply ofLine?_playerText
    · simp
    · simp
  · intro card _
    simp only [String.append_assoc]
    apply ofLine?_playerText
    · simp
    · simp

theorem endTurn_narrates (h : rules.endTurn b = .ok (b', r)) :
  b.Narrates r.pending b'
  := by
  obtain ⟨⟨m₂, s⟩, hend, h⟩ := bind_eq_ok.mp h
  obtain ⟨m₁, hchange, hsweep⟩ := bind_eq_ok.mp hend
  obtain ⟨m₃, hnext, h⟩ := bind_eq_ok.mp h
  obtain ⟨turn, -, hnext⟩ := bind_eq_ok.mp hnext
  obtain rfl := pure_eq_ok.mp hnext
  obtain ⟨⟨m₄, t⟩, hrest, h⟩ := bind_eq_ok.mp h
  obtain ⟨rfl, rfl⟩ := Prod.mk.inj (pure_eq_ok.mp h)
  have hlog := Battle.log_changeAll hchange
  have hchanged : b.Tells [] m₁ := Battle.tells_of_log_eq hlog
  have hswept := hchanged.trans (rules.sweep_faithful _ _ _ _ _ hsweep)
  apply hswept.narrates _ rfl (emitAndRefresh_faithful _ _ _ _ _ _ hrest) rfl
  apply PendingChoice.ofLine?_of_head
  simp

/-- Every action writes a line at least, and leaves the choices pending that its lines are
about. -/
theorem carryOut_narrates {permit : Permit} (h : rules.carryOut permit b = .ok (b', r)) :
  b.Narrates r.pending b'
  := by
  cases permit with
  | playUnit => apply playUnit_narrates h
  | move => apply moveUnit_narrates h
  | attack => apply attackUnit_narrates (lift_fault_eq_ok.mp h)
  | activate => apply activate_narrates h
  | endTurn => apply endTurn_narrates (lift_fault_eq_ok.mp h)

/-- The lines of an action are what it adds to the log, and there is one at least. -/
theorem resolve_narrates {action : Action} {resolution : Resolution}
    (h : rules.resolve b action = .ok resolution) :
  resolution.battle.log = b.log ++ resolution.log ∧ resolution.log ≠ []
    ∧ resolution.pending = resolution.log.filterMap PendingChoice.ofLine?
  := by
  obtain ⟨permit, -, h⟩ := bind_eq_ok.mp h
  obtain ⟨⟨battle, report⟩, hcarry, h⟩ := bind_eq_ok.mp h
  obtain rfl := pure_eq_ok.mp h
  obtain ⟨⟨lines, hlog, htold⟩, hgrows⟩ := carryOut_narrates hcarry
  have hlines : battle.log.drop b.log.length = lines := by
    rw [hlog, List.drop_left]
  rw [hlog, List.length_append] at hgrows
  dsimp only
  rw [hlines]
  refine ⟨hlog, ?_, htold⟩
  apply List.ne_nil_of_length_pos
  omega

end Ruleset

/-- A line is about the choice that it is written for, and about no other; and an accepted
action leaves pending just those choices that the lines it adds to the log are about, in
their order. -/
theorem pending_recounted {rules : Ruleset} {b : Battle} {action : Action}
    {resolution : Resolution} (h : rules.resolve b action = .ok resolution) :
  (∀ line choice, PendingChoice.ofLine? line = some choice ↔ line = choice.line)
  ∧ resolution.battle.log = b.log ++ resolution.log
  ∧ resolution.pending = resolution.log.filterMap PendingChoice.ofLine?
  := by
  obtain ⟨hlog, -, hpending⟩ := Ruleset.resolve_narrates h
  refine ⟨?_, hlog, hpending⟩
  intro line choice
  apply PendingChoice.ofLine?_eq_some

/-- A card that has choices left to its player when its unit enters the battle, in a branch of
a script too, and by its aura. -/
def Card.soothsayer : Card :=
  { id := "soothsayer"
    name := "Soothsayer"
    stats := { vitality := 2 }
    abilities := [{
      kind := .enter
      rules := [
        { trigger := .onDeploy
          script := [.draw 1, .branch (.countAtLeast { includesSelf := true } 1)
            [.revealHandCard 2, .returnHandCard 1] []] },
        { trigger := .aura, script := [.revealHandCard 1] }] }] }

/-- The choices that a soothsayer leaves to its player are pending in the order in which the
log tells of them. -/
theorem pending_recounted_soothsayer :
  let rules : Ruleset := { catalog := ⟨[.soothsayer], by decide⟩ }
  let opening : Battle := .opening 1 ["scout"] ["soothsayer"] [] []
  ∃ resolution, rules.resolve opening (.playUnit 0 0 ⟨.front, 0⟩) = .ok resolution
    ∧ resolution.log = ["P0 gioca Soothsayer in front[0]", "P0 pesca 1 carte",
      "P0 rivela 2 carte (in attesa)", "P0 rimette 1 carte nel mazzo (in attesa)",
      "P0 rivela 1 carte (in attesa)"]
    ∧ resolution.pending = [.revealHandCard 0 2, .returnHandCard 0 1, .revealHandCard 0 1]
    ∧ resolution.pending = resolution.log.filterMap PendingChoice.ofLine?
  := by
  intro rules opening
  have hresult : (rules.resolve opening (.playUnit 0 0 ⟨.front, 0⟩)).toOption.any
      fun resolution => resolution.log = ["P0 gioca Soothsayer in front[0]", "P0 pesca 1 carte",
          "P0 rivela 2 carte (in attesa)", "P0 rimette 1 carte nel mazzo (in attesa)",
          "P0 rivela 1 carte (in attesa)"]
        ∧ resolution.pending
          = [.revealHandCard 0 2, .returnHandCard 0 1, .revealHandCard 0 1] := by
    decide +kernel
  cases h : rules.resolve opening (.playUnit 0 0 ⟨.front, 0⟩) with
  | error stop =>
    rw [h] at hresult
    cases hresult
  | ok resolution =>
    rw [h] at hresult
    simp only [Except.toOption, Option.any_some, decide_eq_true_eq] at hresult
    use resolution, rfl, hresult.1, hresult.2
    apply (pending_recounted h).2.2

end CardBattle
