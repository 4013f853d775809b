import CardBattle.Proofs.Action.Chronicle
import CardBattle.Proofs.Action.Run

/-!
# History

A battle keeps two records of its past: the log, and the counter of uids.  An accepted action
adds to the log just the lines that its resolution holds, and issues a uid only if it deploys
a unit (`Battle.Continues`); all other units that are on the boards after it were there before.
Hence a uid that has left the boards never comes back in a run (`history_grows`).
-/

namespace CardBattle

open Change

namespace Action

/-- Whether the action deploys a unit. -/
def isDeployment : Action → Bool
  | .playUnit .. => true
  | _ => false

end Action

/-- The unit is of the card that the action plays from the hand, and has the next uid. -/
def BoardUnit.EntersBy (v : BoardUnit) (b : Battle) : Action → Prop
  | .playUnit player handIndex _ =>
      v.uid = ⟨b.uids.next⟩ ∧ v.owner = player
        ∧ ∃ side, b.side? player = some side ∧ side.hand[handIndex.toNat]? = some v.cardId
  | _ => False

namespace Battle

/-- What an action adds to the history of a battle: some lines of the log, and if it deploys a
unit the uid of this unit. -/
structure Continues (b : Battle) (action : Action) (resolution : Resolution) : Prop where
  log : resolution.battle.log = b.log ++ resolution.log
  lines : resolution.log ≠ []
  issued : resolution.battle.uids.next.toNat
    = b.uids.next.toNat + (if action.isDeployment then 1 else 0)
  units : ∀ v ∈ resolution.battle.units, (∃ u ∈ b.units, u.Persists v) ∨ v.EntersBy b action

/-- No uid was issued, and every unit was there before. -/
structure Retains (b b' : Battle) : Prop where
  uids : b'.uids = b.uids
  units : b.Descends BoardUnit.Persists b'

variable {b m b' : Battle} {player : UInt8}

theorem Retains.trans (h : b.Retains m) (h' : m.Retains b') :
  b.Retains b'
  := by
  constructor
  · rw [h'.uids, h.uids]
  · apply h.units.trans _ h'.units
    intro u v w huv hvw
    apply huv.trans hvw

theorem Keeps.retains (h : b.Keeps b') :
  b.Retains b'
  := by
  use h.uids
  intro v hv
  obtain ⟨u, hu, hkeeps⟩ := h.units v hv
  exact ⟨u, hu, hkeeps.toPersists⟩

theorem retains_of_units (huids : b'.uids = b.uids) (h : b'.units = b.units) :
  b.Retains b'
  := by
  use huids
  apply descends_of_units BoardUnit.Persists.refl h

theorem Coherent.replace_retains (hb : b.Coherent) {u v : BoardUnit}
    (hu : b.find? u.uid = some u) (h : u.Persists v) :
  b.Retains (b.replace v)
  := by
  use b.replace_uids v
  apply hb.replace_descends BoardUnit.Persists.refl hu h.uid h

theorem Coherent.strike_retains (hb : b.Coherent) {attacker target : BoardUnit} {amount : Int32}
    (htarget : b.find? target.uid = some target)
    (h : Ruleset.strike b attacker target = .ok (b', amount)) :
  b.Retains b'
  := by
  obtain ⟨hurt, hhurt, hrest⟩ := Ruleset.strike_ok h
  have hendures := (BoardUnit.takeDamage_restats hhurt).endures
    fun _ => BoardUnit.takeDamage_bounded hhurt
  have hretains := hb.replace_retains htarget hendures.toPersists
  obtain ⟨-, rfl⟩ | ⟨u, modifiers, hu, rfl⟩ := hrest
  · apply hretains
  · apply hretains.trans
    rw [← find?_uid hu] at hu
    apply (hb.replace htarget hendures).replace_retains hu
    exact ⟨rfl, rfl, rfl⟩

/-- Noting the use of an ability issues no uid. -/
theorem Coherent.uses_retains (hb : b.Coherent) {uid : Uid} {slot : UInt8} {ability : Ability}
    (h : b.Uses player uid slot ability b') :
  b.Retains b'
  := by
  obtain ⟨side, m, hside, rfl, hrest⟩ := h
  have hmarked : b.Retains (b.setSide player (side.markUsed ⟨uid, slot⟩)) := by
    apply retains_of_units
    · apply setSide_uids
    · apply units_shift (t := side.markUsed ⟨uid, slot⟩) hside rfl
  obtain ⟨-, rfl⟩ | ⟨u, hu, rfl⟩ := hrest
  · apply hmarked
  · apply hmarked.trans
    obtain rfl := find?_uid hu
    apply (hb.shift (s := side.markUsed ⟨u.uid, slot⟩) hside rfl).replace_retains hu
    exact ⟨rfl, rfl, rfl⟩

/-- A deployment issues the next uid. -/
theorem Deploys.toNat_next {handIndex : UInt64} {cell : Cell} {card : Card}
    (h : b.Deploys player handIndex cell card b') :
  b'.uids.next.toNat = b.uids.next.toNat + 1
  := by
  obtain ⟨next, side, i, board, line, hnext, -, -, -, -, rfl⟩ := h
  change (Battle.uids (setSide _ player _)).next.toNat = _
  rw [setSide_uids]
  exact Word.toNat_of_next hnext

end Battle

namespace Ruleset

variable {rules : Ruleset} {b m b' : Battle} {player : UInt8}

theorem attackUnit_retains (hb : b.Coherent) {attacker target : Uid}
    (h : (rules.attackUnit player attacker target).Leads b b') :
  b.Retains b'
  := by
  obtain ⟨m, -, hm, hdeclared, ⟨-, hkeeps⟩ | ⟨att, tgt, m₁, amount, -, htgt, hstrike, hkeeps⟩⟩ :=
    attackUnit_keeps hb h
  · have hretains := hdeclared.retains.trans hkeeps.retains
    exact ⟨hretains.uids, hretains.units⟩
  · have hretains := (hdeclared.retains.trans (hm.strike_retains htgt hstrike)).trans hkeeps.retains
    exact ⟨hretains.uids, hretains.units⟩

theorem endTurn_retains (hb : b.Coherent) (h : rules.endTurn.Leads b b') :
  b.Retains b'
  := by
  obtain ⟨m₁, m₂, m₃, ⟨hchange, hm₁⟩, ⟨hsweep, -⟩, ⟨hpasses, hm₃⟩, hrest⟩ := endTurn_coherent hb h
  have hended : b.Retains m₁ := by
    constructor
    · obtain ⟨board0, -, hchange⟩ := bind_eq_ok.mp hchange
      obtain ⟨board1, -, hchange⟩ := bind_eq_ok.mp hchange
      obtain rfl := pure_eq_ok.mp hchange
      rfl
    · have hdescends := Battle.descends_changeAll (R := BoardUnit.Persists)
        (fun u v h => (BoardUnit.endCycle_endures h).toPersists) hchange
      exact hdescends
  have hswept := (hm₁.moves_keep (rules.sweep_moves hsweep)).retains
  have hnext : m₂.Retains m₃ := Battle.retains_of_units hpasses.uids hpasses.units
  apply ((hended.trans hswept).trans hnext).trans
  apply (emitAndRefresh_keeps hm₃ hrest).retains

/-- An accepted action continues the history of the battle. -/
theorem resolve_continues {action : Action} {resolution : Resolution}
    (h : rules.resolve b action = .ok resolution) :
  b.Continues action resolution
  := by
  obtain ⟨hlog, hlines, -⟩ := resolve_narrates h
  obtain ⟨permit, report, hpermit, hcarry⟩ := resolve_ok h
  obtain ⟨hintegrity, hchecked⟩ := permit_ok hpermit
  have hb := (Battle.corruption?_eq_none_iff.mp hintegrity).toCoherent
  have hgrants := permit_grants hpermit
  have hretained : action.isDeployment = false → b.Retains resolution.battle →
      b.Continues action resolution := by
    intro haction hretains
    use hlog, hlines
    · rw [hretains.uids, haction]
      rfl
    · intro v hv
      left
      apply hretains.units v hv
  cases permit with
  | playUnit player handIndex cell card =>
    obtain rfl := hgrants
    obtain ⟨m, hdeploys, hkeeps⟩ := playUnit_keeps hb hcarry
    obtain ⟨side, id, hside, hid, hcard, -⟩ := hchecked
    use hlog, hlines
    · rw [hkeeps.uids, hdeploys.toNat_next]
      rfl
    · intro v hv
      obtain ⟨u, hu, huv⟩ := hkeeps.units v hv
      rcases List.mem_append.mp (hdeploys.units_perm.subset hu) with hu | hu
      · left
        exact ⟨u, hu, huv.toPersists⟩
      · right
        obtain rfl := List.mem_singleton.mp hu
        refine ⟨huv.uid, huv.owner, side, hside, ?_⟩
        rw [huv.cardId, hid, ← Catalog.find?_id hcard]
        rfl
  | move player uid cell =>
    obtain rfl := hgrants
    apply hretained rfl (moveUnit_keeps hb hcarry).retains
  | attack player attacker target =>
    obtain rfl := hgrants
    apply hretained rfl (attackUnit_retains hb ⟨report, lift_fault_eq_ok.mp hcarry⟩)
  | activate player uid slot target ability =>
    obtain rfl := hgrants
    obtain ⟨m, hkeeps, hm, huses⟩ := activate_keeps hb hcarry
    apply hretained rfl (hkeeps.retains.trans (hm.uses_retains huses))
  | endTurn =>
    obtain ⟨player, rfl⟩ := hgrants
    apply hretained rfl (endTurn_retains hb ⟨report, lift_fault_eq_ok.mp hcarry⟩)

end Ruleset

/-! ### Runs -/

namespace Battle

variable {b : Battle} {action : Action} {resolution : Resolution} {uid : Uid}

theorem Continues.hasIssued (h : b.Continues action resolution) (huid : b.uids.hasIssued uid) :
  resolution.battle.uids.hasIssued uid
  := by
  have hissued := h.issued
  simp only [UidCounter.hasIssued, decide_eq_true_eq, UInt32.lt_iff_toNat_lt] at huid ⊢
  split at hissued
  · omega
  · omega

/-- A uid that has left the boards does not come back: units that were there keep theirs, and
one that enters has a uid that was not issued before. -/
theorem Continues.find?_eq_none (h : b.Continues action resolution)
    (huid : b.uids.hasIssued uid) (hgone : b.find? uid = none) :
  resolution.battle.find? uid = none
  := by
  cases hfind : resolution.battle.find? uid with
  | none => rfl
  | some v =>
    exfalso
    obtain rfl := find?_uid hfind
    rcases h.units v (mem_of_find? hfind) with ⟨u, hu, hpersists⟩ | henters
    · apply uid_ne_of_find? hgone hu hpersists.uid.symm
    · cases action with
      | playUnit player handIndex cell => apply UidCounter.ne_of_hasIssued huid henters.1
      | _ => cases henters

end Battle

namespace Ruleset

variable {rules : Ruleset} {b b' : Battle} {steps : List (Battle × Action)}

/-- A run adds lines to the log, and issues as many uids as it deploys units. -/
theorem Run.history (h : rules.Run b steps b') :
  b.log <+: b'.log
  ∧ b'.uids.next.toNat = b.uids.next.toNat + steps.countP (·.2.isDeployment)
  := by
  induction h with
  | nil b => exact ⟨List.prefix_rfl, rfl⟩
  | @cons b b' action resolution steps hstep hrest ih =>
    have hcontinues := resolve_continues hstep
    have hissued := hcontinues.issued
    obtain ⟨hlog, hnext⟩ := ih
    constructor
    · rw [hcontinues.log] at hlog
      apply (List.prefix_append _ _).trans hlog
    · rw [List.countP_cons]
      dsimp only
      omega

theorem Run.find?_eq_none (h : rules.Run b steps b') {uid : Uid} (huid : b.uids.hasIssued uid)
    (hgone : b.find? uid = none) :
  b'.find? uid = none
  := by
  induction h with
  | nil b => apply hgone
  | cons hstep hrest ih =>
    have hcontinues := resolve_continues hstep
    apply ih (hcontinues.hasIssued huid) (hcontinues.find?_eq_none huid hgone)

end Ruleset

/-- Every action of a run continues the history of the battle in which it is taken.  From one
point of a run to a later one, lines are only added to the log, as many uids are issued as units
are deployed, and a uid that was issued and is on no board does not come back. -/
theorem history_grows {rules : Ruleset} {b b' : Battle} {steps : List (Battle × Action)}
    (h : rules.Run b steps b') :
  (∀ before m action after, steps = before ++ (m, action) :: after →
    ∃ resolution, rules.resolve m action = .ok resolution ∧ m.Continues action resolution)
  ∧ ∀ before between after, steps = before ++ between ++ after →
    ∃ m m', rules.Run b before m ∧ rules.Run m between m' ∧ rules.Run m' after b'
      ∧ m.log <+: m'.log
      ∧ m'.uids.next.toNat = m.uids.next.toNat + between.countP (·.2.isDeployment)
      ∧ ∀ uid, m.uids.hasIssued uid → m.find? uid = none → m'.find? uid = none
  := by
  constructor
  · rintro before m action after rfl
    obtain ⟨_, -, hrun⟩ := h.split
    cases hrun with
    | cons hstep => exact ⟨_, hstep, Ruleset.resolve_continues hstep⟩
  · rintro before between after rfl
    obtain ⟨m', hbetween, hafter⟩ := h.split
    obtain ⟨m, hbefore, hbetween⟩ := hbetween.split
    obtain ⟨hlog, hissued⟩ := hbetween.history
    refine ⟨m, m', hbefore, hbetween, hafter, hlog, hissued, ?_⟩
    intro uid huid hgone
    apply hbetween.find?_eq_none huid hgone

/-- A headsman beheads a unit, whose uid stays away when another headsman enters the battle with
the next uid. -/
theorem history_grows_execution :
  let rules : Ruleset := { catalog := ⟨[{ Card.headsman with stats.vitality := 2 }], by decide⟩ }
  let b : Battle := { Battle.execution with side0.hand := ["headsman"] }
  ∃ m b', rules.Run b [(b, .attack 0 ⟨1⟩ ⟨2⟩), (m, .playUnit 0 0 ⟨.back, 0⟩)] b'
    ∧ m.find? ⟨2⟩ = none ∧ b'.find? ⟨2⟩ = none ∧ (b'.find? ⟨4⟩).isSome
    ∧ m.log <+: b'.log ∧ b'.uids.next.toNat = m.uids.next.toNat + 1
  := by
  intro rules b
  have haccepted : (rules.resolve b (.attack 0 ⟨1⟩ ⟨2⟩)).toOption.any fun first =>
      first.battle.find? ⟨2⟩ = none && first.battle.uids.hasIssued ⟨2⟩
      && (rules.resolve first.battle (.playUnit 0 0 ⟨.back, 0⟩)).toOption.any fun second =>
        (second.battle.find? ⟨4⟩).isSome := by
    decide +kernel
  cases hfirst : rules.resolve b (.attack 0 ⟨1⟩ ⟨2⟩) with
  | error stop =>
    rw [hfirst] at haccepted
    cases haccepted
  | ok first =>
    rw [hfirst] at haccepted
    simp only [Except.toOption, Option.any_some, Bool.and_eq_true, decide_eq_true_eq] at haccepted
    obtain ⟨⟨hgone, hissued⟩, hsecond⟩ := haccepted
    cases hplay : rules.resolve first.battle (.playUnit 0 0 ⟨.back, 0⟩) with
    | error stop =>
      rw [hplay] at hsecond
      cases hsecond
    | ok second =>
      rw [hplay] at hsecond
      have hrun : rules.Run b [(b, .attack 0 ⟨1⟩ ⟨2⟩),
          (first.battle, .playUnit 0 0 ⟨.back, 0⟩)] second.battle :=
        .cons hfirst (.cons hplay (.nil _))
      use first.battle, second.battle, hrun, hgone
      obtain ⟨m, m', hbefore, hbetween, hafter, hlog, hnext, huids⟩ := (history_grows hrun).2
        [(b, .attack 0 ⟨1⟩ ⟨2⟩)] [(first.battle, .playUnit 0 0 ⟨.back, 0⟩)] [] rfl
      cases hafter
      cases hbetween
      exact ⟨huids _ hissued hgone, hsecond, hlog, hnext⟩

end CardBattle
