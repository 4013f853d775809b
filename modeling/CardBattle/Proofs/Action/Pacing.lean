import CardBattle.Proofs.Action.Readiness

/-!
# The pace of active abilities

In a run of accepted actions the readiness of an ability goes only one way: from its use on,
the turns that have ended and the turns that are left of its cooldown are together no fewer
than the cooldown, and every use takes one from the uses that are left.  Hence so many turns
end between two uses as the cooldown says, and one in any case, and there are no more uses
than were left (`activations_paced`).
-/

namespace CardBattle

namespace Readiness

/-- The ability was used `k` turns ago, and `c` turns are over or left of its cooldown. -/
structure Paused (c k : Nat) (r : Readiness) : Prop where
  used : k = 0 → r.used
  cool : c ≤ k + r.cooldown.toNat

/-- The uses of the ability are limited, and at most `n` are left. -/
def IsLimited (n : Nat) (r : Readiness) : Prop :=
  ∃ left, r.left = some left ∧ left.toNat ≤ n

variable {r : Readiness} {c k n : Nat}

theorem Paused.rest (h : r.Paused c k) :
  r.rest.Paused c (k + 1)
  := by
  have hcool := h.cool
  constructor
  · intro hk
    cases hk
  · simp only [Readiness.rest, toNat_coolDown]
    omega

/-- When an ability is ready, its pause is over. -/
theorem Paused.over (h : r.Paused c k) (hready : r.IsReady) :
  max 1 c ≤ k
  := by
  have hcool : c ≤ k + 0 := by
    have hcool := h.cool
    rwa [hready.cool] at hcool
  have hk : k ≠ 0 := by
    intro hk
    have hused := h.used hk
    rw [hready.unused] at hused
    cases hused
  omega

/-- An ability that is used again is paused from then on as well. -/
theorem Paused.spend (h : r.Paused c k) (hready : r.IsReady) (cooldown : UInt32) :
  (r.spend cooldown).Paused c k
  := by
  have hover := h.over hready
  refine ⟨fun _ => rfl, ?_⟩
  omega

/-- When an ability is ready, there are uses left. -/
theorem IsLimited.pos (h : r.IsLimited n) (hready : r.IsReady) :
  0 < n
  := by
  obtain ⟨left, hleft, hn⟩ := h
  have hsome : left.toNat ≠ 0 := by
    intro hzero
    have hzero : left = 0 := UInt32.toNat_inj.mp hzero
    apply hready.left
    rw [hleft, hzero]
  omega

theorem IsLimited.spend (h : r.IsLimited n) (cooldown : UInt32) :
  (r.spend cooldown).IsLimited (n - 1)
  := by
  obtain ⟨left, hleft, hn⟩ := h
  refine ⟨BoardUnit.coolDown left, by rw [Readiness.spend, hleft, Option.map_some], ?_⟩
  rw [toNat_coolDown]
  omega

end Readiness

namespace Ruleset

variable {rules : Ruleset} {b b' : Battle} {action : Action} {resolution : Resolution}
  {steps : List (Battle × Action)} {uid : Uid} {slot : UInt8}

theorem endsTurn_of_use (h : action.isUseOf uid slot) :
  ¬action.endsTurn
  := by
  cases action with
  | activate player unit s target => simp [Action.endsTurn]
  | _ => cases h

/-- A pause goes on through an accepted action, and it is a turn longer if that ends the
turn. -/
theorem resolve_paused (h : rules.resolve b action = .ok resolution)
    (huid : b.uids.hasIssued uid) {c k : Nat}
    (hpaused : ∀ r, b.readiness? uid slot = some r → r.Paused c k) :
  ∀ r, resolution.battle.readiness? uid slot = some r →
    r.Paused c (if action.endsTurn then k + 1 else k)
  := by
  intro r' hr'
  obtain ⟨r, hr, rfl⟩ := (resolve_readies h huid slot).ready r' hr'
  rw [Action.ready]
  by_cases hends : action.endsTurn
  · rw [if_pos hends, if_pos hends]
    exact (hpaused r hr).rest
  · rw [if_neg hends, if_neg hends]
    split
    · next huse =>
      -- In between it is used as well, so that it has been ready again.
      obtain ⟨s, hs, hready⟩ := resolve_ready huse h
      obtain rfl := Option.some.inj (hr.symm.trans hs)
      exact (hpaused r hr).spend hready _
    · exact hpaused r hr

/-- If an ability was used `k` turns ago, and `c` turns are over or left of its cooldown, then
it is used again only when these have ended. -/
theorem Run.turns_before_use {between after : List (Battle × Action)} {next : Battle × Action}
    (h : rules.Run b (between ++ next :: after) b') (hnext : next.2.isUseOf uid slot)
    (huid : b.uids.hasIssued uid) {c k : Nat}
    (hpaused : ∀ r, b.readiness? uid slot = some r → r.Paused c k) :
  max 1 c ≤ k + between.countP (·.2.endsTurn)
  := by
  induction between generalizing b k with
  | nil =>
    cases h with
    | cons hstep hrest =>
      obtain ⟨r, hr, hready⟩ := resolve_ready hnext hstep
      exact (hpaused r hr).over hready
  | cons step between ih =>
    cases h with
    | @cons _ _ action resolution _ hstep hrest =>
      have hcount := ih hrest (resolve_readies hstep huid slot).issued
        (resolve_paused hstep huid hpaused)
      by_cases hends : action.endsTurn
      · rw [if_pos hends] at hcount
        rw [List.countP_cons, if_pos hends]
        omega
      · rw [if_neg hends] at hcount
        rwa [List.countP_cons, if_neg hends]

/-- Between two uses of an ability so many turns end as its cooldown says, and one in any
case. -/
theorem Run.turns_between_uses {between after : List (Battle × Action)}
    {first next : Battle × Action} (h : rules.Run b (first :: between ++ next :: after) b')
    (hfirst : first.2.isUseOf uid slot) (hnext : next.2.isUseOf uid slot) :
  max 1 (rules.cooldownOf first.1 uid slot).toNat ≤ between.countP (·.2.endsTurn)
  := by
  cases h with
  | @cons _ _ action resolution _ hstep hrest =>
    obtain ⟨r, hr, -⟩ := resolve_ready hfirst hstep
    obtain ⟨u, -, hu, -, -⟩ := Battle.readiness?_eq_some.mp hr
    obtain ⟨permit, report, hpermit, -⟩ := resolve_ok hstep
    have hb := (Battle.corruption?_eq_none_iff.mp (permit_ok hpermit).1).toCoherent
    have huid := (hb.fit u (Battle.mem_of_find? hu)).issued
    rw [Battle.find?_uid hu] at huid
    have hreadies := resolve_readies hstep huid slot
    have hpaused : ∀ r, resolution.battle.readiness? uid slot = some r →
        r.Paused (rules.cooldownOf b uid slot).toNat 0 := by
      intro r' hr'
      obtain ⟨r, -, rfl⟩ := hreadies.ready r' hr'
      rw [Action.ready, if_neg (endsTurn_of_use hfirst), if_pos hfirst]
      refine ⟨fun _ => rfl, ?_⟩
      rw [Nat.zero_add]
      apply Nat.le_refl
    have hcount := hrest.turns_before_use hnext hreadies.issued hpaused
    rwa [Nat.zero_add] at hcount

/-- Where an ability is used, there is one. -/
theorem Run.ability_of_use {first : Battle × Action}
    (h : rules.Run b (first :: steps) b') (hfirst : first.2.isUseOf uid slot) :
  ∃ ability, rules.abilityOf? first.1 uid slot = some ability
  := by
  cases h with
  | @cons _ _ action resolution _ hstep hrest =>
    obtain ⟨permit, report, hpermit, -⟩ := resolve_ok hstep
    cases action with
    | activate player unit s target =>
      obtain ⟨rfl, rfl⟩ : unit = uid ∧ s = slot := by simpa [Action.isUseOf] using hfirst
      obtain ⟨ability, -, hcheck⟩ := permit_use hpermit
      exact ⟨ability, (checkActivation_ready hcheck).1⟩
    | _ => cases hfirst

/-- An accepted action takes one from the uses of an ability that are left if it is one of
them. -/
theorem resolve_isLimited (h : rules.resolve b action = .ok resolution)
    (huid : b.uids.hasIssued uid) {n : Nat}
    (hlimited : ∀ r, b.readiness? uid slot = some r → r.IsLimited n) :
  ∀ r, resolution.battle.readiness? uid slot = some r →
    r.IsLimited (if action.isUseOf uid slot then n - 1 else n)
  := by
  intro r' hr'
  obtain ⟨r, hr, rfl⟩ := (resolve_readies h huid slot).ready r' hr'
  have hlimited := hlimited r hr
  rw [Action.ready]
  by_cases huse : action.isUseOf uid slot
  · rw [if_neg (endsTurn_of_use huse), if_pos huse, if_pos huse]
    exact hlimited.spend _
  · rw [if_neg huse, if_neg huse]
    split
    · exact hlimited
    · exact hlimited

/-- If the uses of an ability that are left are at most `n`, then it is used at most `n`
times. -/
theorem Run.uses_le (h : rules.Run b steps b') (huid : b.uids.hasIssued uid) {n : Nat}
    (hlimited : ∀ r, b.readiness? uid slot = some r → r.IsLimited n) :
  steps.countP (·.2.isUseOf uid slot) ≤ n
  := by
  induction h generalizing n with
  | nil => simp
  | @cons b b' action resolution steps hstep hrest ih =>
    have hcount := ih (resolve_readies hstep huid slot).issued
      (resolve_isLimited hstep huid hlimited)
    by_cases huse : action.isUseOf uid slot
    · obtain ⟨r, hr, hready⟩ := resolve_ready huse hstep
      have hpos := (hlimited r hr).pos hready
      rw [if_pos huse] at hcount
      rw [List.countP_cons, if_pos huse]
      omega
    · rw [if_neg huse] at hcount
      rwa [List.countP_cons, if_neg huse]

/-- A unit on a board of a run has a uid that was issued, unless nothing is left to be
done. -/
theorem Run.issued_of_find? (h : rules.Run b steps b') (hsteps : steps ≠ []) {u : BoardUnit}
    (hu : b.find? uid = some u) :
  b.uids.hasIssued uid
  := by
  cases h with
  | nil => exact absurd rfl hsteps
  | cons hstep hrest => apply resolve_issued hstep hu

end Ruleset

/-- In a run of accepted actions, there is an ability whenever one is used, and between two
uses of it so many turns end as its cooldown says, and one in any case.  If a unit has `n`
uses left, then the ability is used at most `n` times from there on. -/
theorem activations_paced {rules : Ruleset} {b b' : Battle} {steps : List (Battle × Action)}
    (h : rules.Run b steps b') (uid : Uid) (slot : UInt8) :
  (∀ before first between next after, steps = before ++ first :: between ++ next :: after →
    first.2.isUseOf uid slot → next.2.isUseOf uid slot →
    ∃ ability, rules.abilityOf? first.1 uid slot = some ability
      ∧ max 1 (ability.cooldown.getD 0).toNat ≤ between.countP (·.2.endsTurn))
  ∧ ∀ before after m u n, steps = before ++ after → rules.Run b before m →
    rules.Run m after b' → m.find? uid = some u → u.usesLeft.find? slot = some n →
    after.countP (·.2.isUseOf uid slot) ≤ n.toNat
  := by
  constructor
  · rintro before first between next after rfl hfirst hnext
    rw [List.append_assoc] at h
    obtain ⟨m, -, hrun⟩ := h.split
    obtain ⟨ability, hability⟩ := hrun.ability_of_use hfirst
    use ability, hability
    have hturns := hrun.turns_between_uses hfirst hnext
    rwa [Ruleset.cooldownOf, hability] at hturns
  · rintro before after m u n - - hrun hu hn
    by_cases hafter : after = []
    · rw [hafter, List.countP_nil]
      apply Nat.zero_le
    · apply hrun.uses_le (hrun.issued_of_find? hafter hu)
      intro r hr
      obtain ⟨v, side, hv, -, rfl⟩ := Battle.readiness?_eq_some.mp hr
      obtain rfl := Option.some.inj (hu.symm.trans hv)
      exact ⟨n, hn, Nat.le_refl _⟩

/-- A card whose unit can beat the drum in every other turn, and twice at most. -/
def Card.drummer : Card :=
  { id := "drummer"
    name := "Drummer"
    stats := { vitality := 3 }
    abilities := [{
      kind := .active
      slot := some 1
      cooldown := some 1
      uses := some 2
      rules := [{ trigger := .activate, script := [.draw 1] }] }] }

/-- A battle with a drummer that has not beaten the drum yet. -/
def Battle.parade : Battle :=
  { Battle.start 1 with
    side0.deck := ["scout", "scout"]
    side0.board := ⟨[some (.ofCard ⟨1⟩ 0 ⟨.front, 0⟩ .drummer), none, none, none, none, none], rfl⟩
    uids := ⟨2⟩ }

/-- A drummer beats the drum twice, and a turn ends in between. -/
theorem run_parade :
  let rules : Ruleset := { catalog := ⟨[.drummer], by decide⟩ }
  let beat : Action := .activate 0 ⟨1⟩ 1 none
  ∃ m m' b', rules.Run .parade [(.parade, beat), (m, .endTurn 0), (m', beat)] b'
  := by
  intro rules beat
  have haccepted : (rules.resolve .parade beat).toOption.any fun first =>
      (rules.resolve first.battle (.endTurn 0)).toOption.any fun turn =>
        (rules.resolve turn.battle beat).isOk := by
    decide +kernel
  rcases hfirst : rules.resolve .parade beat with stop | first
  · rw [hfirst] at haccepted
    cases haccepted
  · rw [hfirst] at haccepted
    rcases hturn : rules.resolve first.battle (.endTurn 0) with stop | turn
    · simp [Except.toOption, hturn] at haccepted
    · rcases hsecond : rules.resolve turn.battle beat with stop | second
      · simp [Except.toOption, hturn, hsecond, Except.isOk, Except.toBool] at haccepted
      · use first.battle, turn.battle, second.battle
        apply Ruleset.Run.cons hfirst (.cons hturn (.cons hsecond (.nil _)))

/-- A drummer waits for the end of a turn, and beats the drum no more than twice. -/
theorem activations_paced_parade :
  let rules : Ruleset := { catalog := ⟨[.drummer], by decide⟩ }
  let beat : Action := .activate 0 ⟨1⟩ 1 none
  ∃ m m' b' steps, steps = [(.parade, beat), (m, .endTurn 0), (m', beat)]
    ∧ rules.Run .parade steps b'
    ∧ (∃ ability, rules.abilityOf? .parade ⟨1⟩ 1 = some ability
      ∧ max 1 (ability.cooldown.getD 0).toNat ≤ [(m, Action.endTurn 0)].countP (·.2.endsTurn))
    ∧ steps.countP (·.2.isUseOf ⟨1⟩ 1) ≤ 2
  := by
  intro rules beat
  obtain ⟨m, m', b', hrun⟩ := run_parade
  refine ⟨m, m', b', _, rfl, hrun, ?_, ?_⟩
  · exact (activations_paced hrun ⟨1⟩ 1).1 [] (.parade, beat) [(m, .endTurn 0)] (m', beat) []
      rfl rfl rfl
  · exact (activations_paced hrun ⟨1⟩ 1).2 [] _ .parade (.ofCard ⟨1⟩ 0 ⟨.front, 0⟩ .drummer) 2
      rfl (.nil _) hrun (by decide) (by decide)

end CardBattle
