import CardBattle.Action.Legal
import CardBattle.Proofs.Action.Permit
import CardBattle.Proofs.Battle.Integrity
import CardBattle.Proofs.Cascade.Agreement

/-!
# What the legal actions leave out

For every action of the active player that is accepted, one of the legal actions does the
same (`legalActions_complete`): it is the action itself, or it plays an equal card into the
same cell, or it uses the same ability without a target that makes no difference.  One thing
is left out.  An ability of which the scripts do not depend on a target can be aimed all the
same, and aiming it makes a difference if the condition of a rule block judges the target, but
no legal action aims it (`legalActions_omit_aimed`).
-/

namespace CardBattle

open Change

/-! ### Places and cells -/

/-- A card of a hand that has not been seen has a first place, which is not behind any other
of its places. -/
theorem exists_firstPlace {seen hand : List String} {i : Nat} {id : String} (place : Nat)
    (hid : hand[i]? = some id) (hnew : id ∉ seen) :
  ∃ j ≤ i, place + j ∈ firstPlaces seen place hand ∧ hand[j]? = some id
  := by
  induction hand generalizing seen place i with
  | nil => cases hid
  | cons first rest ih =>
    by_cases hfirst : first = id
    · subst hfirst
      use 0, Nat.zero_le i
      rw [firstPlaces, if_neg hnew]
      exact ⟨List.mem_cons_self, rfl⟩
    · cases i with
      | zero => exact absurd (Option.some.inj hid) hfirst
      | succ i =>
        by_cases hseen : first ∈ seen
        · obtain ⟨j, hj, hmem, hplace⟩ := ih (place + 1) hid hnew
          rw [Nat.add_right_comm] at hmem
          use j + 1, Nat.succ_le_succ hj
          rw [firstPlaces, if_pos hseen]
          exact ⟨hmem, hplace⟩
        · have hnew : id ∉ first :: seen := by simp [hnew, Ne.symm hfirst]
          obtain ⟨j, hj, hmem, hplace⟩ := ih (place + 1) hid hnew
          rw [Nat.add_right_comm] at hmem
          use j + 1, Nat.succ_le_succ hj
          rw [firstPlaces, if_neg hseen]
          exact ⟨List.mem_cons_of_mem _ hmem, hplace⟩

/-- The free cells of a board are those that are free. -/
theorem Board.mem_freeCells {board : Board} {cell : Cell} :
  cell ∈ board.freeCells ↔ board.isFree cell
  := by
  rw [freeCells, List.mem_filter]
  constructor
  · exact And.right
  · intro hfree
    obtain ⟨i, hi, -⟩ := isFree_iff.mp hfree
    use List.mem_of_getElem? (Cell.getElem?_all_iff.mpr hi)

/-- An active ability that is found is among those of the card. -/
theorem Card.mem_activeAbilities {card : Card} {slot : UInt8} {ability : Ability}
    (h : card.activeAbility? slot = some ability) :
  (slot, ability) ∈ card.activeAbilities
  := by
  have hslot : ability.activeSlot? = some slot := by simpa using List.find?_some h
  apply List.mem_filterMap.mpr
  use ability, List.mem_of_find?_eq_some h
  rw [hslot, Option.map_some]

/-! ### Candidates -/

namespace Ruleset

variable {rules : Ruleset} {b : Battle} {side : Side} {u : BoardUnit} {action : Action}

/-- The ways to play a card at its first place are candidates. -/
theorem play_mem_candidates (hside : b.side? b.activePlayer = some side) {place : Nat}
    {cell : Cell} (hplace : place ∈ firstPlaces [] 0 side.hand)
    (hcell : side.board.isFree cell) :
  .playUnit b.activePlayer (UInt64.ofNat place) cell ∈ rules.candidates b
  := by
  rw [candidates, hside]
  apply List.mem_append_left
  apply List.mem_flatMap.mpr
  use place, hplace
  apply List.mem_map_of_mem (Board.mem_freeCells.mpr hcell)

/-- The ways to act with a unit of the active player are candidates. -/
theorem mem_candidates (hside : b.side? b.activePlayer = some side) (hu : u ∈ side.board.units)
    (h : action ∈ rules.unitCandidates b side u) :
  action ∈ rules.candidates b
  := by
  rw [candidates, hside]
  apply List.mem_append_right
  apply List.mem_flatMap.mpr
  use u, hu

/-- A candidate that is accepted is legal. -/
theorem mem_legalActions (hcandidate : action ∈ rules.candidates b)
    (h : rules.validate b action = .ok ()) :
  action ∈ rules.legalActions b
  := by
  apply List.mem_append_left
  apply List.mem_filter.mpr
  use hcandidate
  rw [h]
  rfl

/-! ### Checks that come out the same -/

/-- An action is accepted if a permit for it is issued. -/
theorem validate_eq_ok :
  rules.validate b action = .ok () ↔ ∃ permit, rules.permit b action = .ok permit
  := by
  rw [validate]
  cases rules.permit b action with
  | error r => simp [Except.map]
  | ok permit => simp [Except.map]

/-- Actions come to the same if carrying out their permits does. -/
theorem resolve_congr {action action' : Action} {permit permit' : Permit}
    (h : rules.permit b action = .ok permit) (h' : rules.permit b action' = .ok permit')
    (hcarry : rules.carryOut permit' b = rules.carryOut permit b) :
  rules.resolve b action' = rules.resolve b action
  := by
  rw [resolve, resolve, h, h']
  change rules.carryOut permit' b >>= _ = rules.carryOut permit b >>= _
  rw [hcarry]

variable {player : UInt8} {permit : Permit}

/-- Equal cards of a hand can be played into the same cells. -/
theorem permit_playUnit {place place' : UInt64} {cell : Cell}
    {id : String} (hside : b.side? player = some side)
    (hid : side.hand[place.toNat]? = some id) (hid' : side.hand[place'.toNat]? = some id)
    (h : rules.permit b (.playUnit player place cell) = .ok permit) :
  ∃ permit', rules.permit b (.playUnit player place' cell) = .ok permit'
  := by
  obtain ⟨_, hintegrity, h⟩ := bind_eq_ok.mp h
  obtain ⟨card, hcard, h⟩ := bind_eq_ok.mp h
  have hcard' : rules.checkPlay b player place' cell = .ok card := by
    rw [← hcard, checkPlay, checkPlay, Battle.sideOf_eq_ok.mpr hside]
    apply bind_congr_ok
    intro side' hside'
    obtain rfl := Except.ok.inj hside'
    rw [unitCardInHand, unitCardInHand, hid, hid']
  use .playUnit player place' cell card
  exact bind_eq_ok.mpr ⟨_, hintegrity, bind_eq_ok.mpr ⟨card, hcard', rfl⟩⟩

/-- An ability that can be used can be aimed at whatever passes the check of its target. -/
theorem permit_activate {uid : Uid} {slot : UInt8} {target : Option Uid}
    (h : rules.permit b (.activate player uid slot target) = .ok permit) :
  ∃ u card ability, b.find? uid = some u ∧ u.owner = player ∧ rules.cardOf? u = some card
    ∧ card.activeAbility? slot = some ability
    ∧ rules.checkTarget b uid slot target ability = .ok ()
    ∧ ∀ target', rules.checkTarget b uid slot target' ability = .ok () →
      rules.permit b (.activate player uid slot target')
        = .ok (.activate player uid slot target' ability)
  := by
  obtain ⟨_, hintegrity, h⟩ := bind_eq_ok.mp h
  obtain ⟨ability, hability, -⟩ := bind_eq_ok.mp h
  obtain ⟨u, hu, hability⟩ := bind_eq_ok.mp hability
  obtain ⟨hfind, howner⟩ := Battle.ownedUnit_eq_ok.mp hu
  split at hability
  · cases hability
  · next found hfound =>
    obtain ⟨_, hready, hability⟩ := bind_eq_ok.mp hability
    obtain ⟨side, hside, hability⟩ := bind_eq_ok.mp hability
    obtain ⟨_, hcost, hability⟩ := bind_eq_ok.mp hability
    obtain ⟨_, htarget, hability⟩ := bind_eq_ok.mp hability
    obtain ⟨card, hcard, hslot⟩ := Option.bind_eq_some_iff.mp hfound
    refine ⟨u, card, found, hfind, howner, hcard, hslot, htarget, ?_⟩
    intro target' htarget'
    have hcheck : rules.checkActivation b player uid slot target' = .ok found := by
      apply bind_eq_ok.mpr
      use u, hu
      rw [hfound]
      exact bind_eq_ok.mpr ⟨_, hready, bind_eq_ok.mpr ⟨side, hside, bind_eq_ok.mpr ⟨_, hcost,
        bind_eq_ok.mpr ⟨_, htarget', rfl⟩⟩⟩⟩
    exact bind_eq_ok.mpr ⟨_, hintegrity, bind_eq_ok.mpr ⟨found, hcheck, rfl⟩⟩

end Ruleset

/-! ### Targets that make no difference -/

/-- Whether the condition of a rule block that an activation runs depends on a target. -/
def Ability.judgesTarget (a : Ability) : Bool :=
  (a.blocksFor .activate).any (RuleBlock.judges .target)

namespace Ruleset

variable {rules : Ruleset} {b : Battle} {player : UInt8} {uid : Uid} {slot : UInt8}
  {ability : Ability}

/-- An ability of which neither scripts nor conditions depend on a target does the same
whatever it is aimed at. -/
theorem runActivation_retarget (hscript : ¬ability.needsTarget)
    (hcondition : ¬ability.judgesTarget) (event : Event) (target : Option Uid) :
  rules.runActivation uid ability { event with target } b
    = rules.runActivation uid ability event b
  := by
  apply runBlocks_agree (P := fun _ => True) rules.emit_moves (fun _ _ _ _ => trivial)
  · intro actor c _
    rfl
  · intro block hblock
    apply Event.Alike.of_differs (.target event target)
    intro hjudges
    apply hcondition
    apply List.any_eq_true.mpr
    use block, hblock
  · intro block hblock
    apply Event.Alike.of_differs (.target event target)
    intro hmentions
    apply hscript
    apply List.any_eq_true.mpr
    use block, hblock
  · trivial

/-- To use such an ability comes to the same whatever it is aimed at. -/
theorem activate_retarget (hscript : ¬ability.needsTarget) (hcondition : ¬ability.judgesTarget)
    (target target' : Option Uid) :
  rules.activate player uid slot target' ability b
    = rules.activate player uid slot target ability b
  := by
  apply bind_congr_ok
  intro side _
  dsimp only
  rw [runActivation_retarget hscript hcondition
    { trigger := .activate, player, source := some uid, target } target']

/-! ### The legal actions -/

/-- If the action aims an ability of which the conditions depend on a target, then so do the
scripts. -/
def AimsPlainly (rules : Ruleset) (b : Battle) : Action → Prop
  | .activate _ uid slot (some _) => ∀ u card ability, b.find? uid = some u →
      rules.cardOf? u = some card → card.activeAbility? slot = some ability →
      ability.judgesTarget → ability.needsTarget
  | _ => True

/-- The two actions do the same: they play equal cards into the same cell, they use the same
ability with the same result, or they are the same action. -/
def Equates (rules : Ruleset) (b : Battle) : Action → Action → Prop
  | .playUnit player place cell, legal => ∃ place' side id, legal = .playUnit player place' cell
      ∧ b.side? player = some side ∧ side.hand[place.toNat]? = some id
      ∧ side.hand[place'.toNat]? = some id
  | .activate player uid slot target, legal => ∃ target',
      legal = .activate player uid slot target'
        ∧ rules.resolve b legal = rules.resolve b (.activate player uid slot target)
  | action, legal => legal = action

/-- A legal action does the same as a card that is played. -/
theorem playUnit_complete {place : UInt64} {cell : Cell}
    (h : rules.validate b (.playUnit b.activePlayer place cell) = .ok ()) :
  ∃ legal ∈ rules.legalActions b,
    rules.Equates b (.playUnit b.activePlayer place cell) legal
  := by
  obtain ⟨permit, hpermit⟩ := validate_eq_ok.mp h
  have hgrants := permit_grants hpermit
  have hchecked := (permit_ok hpermit).2
  cases permit with
  | playUnit player handIndex cell card =>
    cases hgrants
    obtain ⟨side, id, hside, hid, -, hfree⟩ := hchecked
    obtain ⟨j, hj, hmem, hid'⟩ := exists_firstPlace 0 hid List.not_mem_nil
    rw [Nat.zero_add] at hmem
    have hword : (UInt64.ofNat j).toNat = j :=
      UInt64.toNat_ofNat_of_lt (Nat.lt_of_le_of_lt hj place.toNat_lt)
    rw [← hword] at hid'
    use .playUnit b.activePlayer (UInt64.ofNat j) cell
    constructor
    · apply mem_legalActions (play_mem_candidates hside hmem hfree)
      apply validate_eq_ok.mpr
      apply permit_playUnit hside hid hid' hpermit
    · use UInt64.ofNat j, side, id
  | _ => simp [Permit.Grants] at hgrants

/-- A legal action does the same as an ability that is used, unless the ability is aimed and
only its conditions depend on the target. -/
theorem activate_complete {uid : Uid} {slot : UInt8} {target : Option Uid}
    (h : rules.validate b (.activate b.activePlayer uid slot target) = .ok ())
    (haim : rules.AimsPlainly b (.activate b.activePlayer uid slot target)) :
  ∃ legal ∈ rules.legalActions b,
    rules.Equates b (.activate b.activePlayer uid slot target) legal
  := by
  obtain ⟨permit, hpermit⟩ := validate_eq_ok.mp h
  have hb := (Battle.corruption?_eq_none_iff.mp (permit_ok hpermit).1).toCoherent
  obtain ⟨u, card, ability, hfind, howner, hcard, hslot, htarget, hother⟩ :=
    permit_activate hpermit
  obtain ⟨side, hside, hu, -⟩ := hb.find?_side hfind
  rw [howner] at hside
  obtain rfl := Battle.find?_uid hfind
  have hcandidate : ∀ legal ∈ rules.activationCandidates b u slot ability,
      legal ∈ rules.candidates b := by
    intro legal hlegal
    apply mem_candidates hside (Board.mem_of_find? hu)
    apply List.mem_append_right
    rw [abilityCandidates, hcard]
    apply List.mem_flatMap.mpr
    use (slot, ability), Card.mem_activeAbilities hslot
  by_cases hneeds : ability.needsTarget
  · -- The action has a target, and it is one of the candidates itself.
    cases target with
    | none =>
      rw [checkTarget, Rejection.unless_eq_ok] at htarget
      exact absurd hneeds htarget
    | some target =>
      rw [checkTarget, Rejection.unless_eq_ok] at htarget
      use .activate b.activePlayer u.uid slot (some target)
      constructor
      · apply mem_legalActions _ h
        apply hcandidate
        rw [activationCandidates, if_pos hneeds]
        apply List.mem_map_of_mem htarget
      · use some target
  · -- The candidate has no target, and the target of the action makes no difference.
    have huntargeted := hother none (Rejection.unless_eq_ok.mpr hneeds)
    use .activate b.activePlayer u.uid slot none
    constructor
    · apply mem_legalActions _ (validate_eq_ok.mpr ⟨_, huntargeted⟩)
      apply hcandidate
      rw [activationCandidates, if_neg hneeds]
      apply List.mem_singleton_self
    · use none, rfl
      cases target with
      | none => rfl
      | some target =>
        have hjudges : ¬ability.judgesTarget := fun hjudges =>
          hneeds (haim u card ability hfind hcard hslot hjudges)
        apply resolve_congr (hother _ htarget) huntargeted
        apply activate_retarget hneeds hjudges

/-- A move that is accepted is legal. -/
theorem move_complete {uid : Uid} {cell : Cell}
    (h : rules.validate b (.move b.activePlayer uid cell) = .ok ()) :
  .move b.activePlayer uid cell ∈ rules.legalActions b
  := by
  obtain ⟨permit, hpermit⟩ := validate_eq_ok.mp h
  have hgrants := permit_grants hpermit
  obtain ⟨hintegrity, hchecked⟩ := permit_ok hpermit
  have hb := (Battle.corruption?_eq_none_iff.mp hintegrity).toCoherent
  cases permit with
  | move player uid cell =>
    cases hgrants
    obtain ⟨side, u, hside, hfind, howner, hfree⟩ := hchecked
    obtain ⟨side', hside', hu, -⟩ := hb.find?_side hfind
    rw [howner] at hside'
    obtain rfl := Option.some.inj (hside.symm.trans hside')
    obtain rfl := Battle.find?_uid hfind
    apply mem_legalActions _ h
    apply mem_candidates hside (Board.mem_of_find? hu)
    apply List.mem_append_left
    apply List.mem_append_left
    apply List.mem_map_of_mem (Board.mem_freeCells.mpr hfree)
  | _ => simp [Permit.Grants] at hgrants

/-- An attack that is accepted is legal. -/
theorem attack_complete {attacker target : Uid}
    (h : rules.validate b (.attack b.activePlayer attacker target) = .ok ()) :
  .attack b.activePlayer attacker target ∈ rules.legalActions b
  := by
  obtain ⟨permit, hpermit⟩ := validate_eq_ok.mp h
  have hgrants := permit_grants hpermit
  obtain ⟨hintegrity, hchecked⟩ := permit_ok hpermit
  have hb := (Battle.corruption?_eq_none_iff.mp hintegrity).toCoherent
  cases permit with
  | attack player attacker target =>
    cases hgrants
    obtain ⟨u, hfind, howner, -, -, htarget⟩ := hchecked
    obtain ⟨side, hside, hu, -⟩ := hb.find?_side hfind
    rw [howner] at hside
    obtain rfl := Battle.find?_uid hfind
    apply mem_legalActions _ h
    apply mem_candidates hside (Board.mem_of_find? hu)
    apply List.mem_append_left
    apply List.mem_append_right
    apply List.mem_map_of_mem htarget
  | _ => simp [Permit.Grants] at hgrants

end Ruleset

/-- For every action of the active player that is accepted, a legal action does the same: to
play an equal card into the same cell, to use the same ability with the same result, or else
the action itself; only an aimed ability is left out of which the conditions depend on a
target and the scripts do not. -/
theorem legalActions_complete (rules : Ruleset) (b : Battle) (action : Action)
    (hplayer : action.player = b.activePlayer) (h : rules.validate b action = .ok ())
    (haim : rules.AimsPlainly b action) :
  ∃ legal ∈ rules.legalActions b, rules.Equates b action legal
  := by
  cases action with
  | playUnit player place cell =>
    obtain rfl : player = b.activePlayer := hplayer
    apply Ruleset.playUnit_complete h
  | move player uid cell =>
    obtain rfl : player = b.activePlayer := hplayer
    use .move b.activePlayer uid cell, Ruleset.move_complete h
    rfl
  | attack player attacker target =>
    obtain rfl : player = b.activePlayer := hplayer
    use .attack b.activePlayer attacker target, Ruleset.attack_complete h
    rfl
  | activate player uid slot target =>
    obtain rfl : player = b.activePlayer := hplayer
    apply Ruleset.activate_complete h haim
  | endTurn player =>
    obtain rfl : player = b.activePlayer := hplayer
    use .endTurn b.activePlayer
    constructor
    · apply List.mem_append_right
      apply List.mem_singleton_self
    · rfl

/-- A card of a unit that can spy on an enemy, which draws a card, or stab one. -/
def Card.spy : Card :=
  { id := "spy"
    name := "Spy"
    abilities := [
      { kind := .active
        slot := some 1
        rules := [{
          trigger := .activate
          condition := some .targetIsEnemy
          script := [.draw 1] }] },
      { kind := .active
        slot := some 2
        rules := [{
          trigger := .activate
          condition := some .targetIsEnemy
          script := [.damage .target 1] }] }] }

/-- A battle in which a spy faces another unit. -/
def Battle.espionage : Battle :=
  { Battle.duel with
    side0.board := ⟨[some {
      uid := ⟨1⟩, cardId := "spy", owner := 0, cell := ⟨.front, 0⟩, vitality := 3,
      vitalityMax := 3, impact := 2, defence := 0, velocity := 1 },
      none, none, none, none, none], rfl⟩ }

/-- A legal action aims the ability of a spy to stab. -/
theorem legalActions_complete_espionage :
  let rules : Ruleset := { catalog := ⟨[.spy], by decide⟩ }
  let action : Action := .activate 0 ⟨1⟩ 2 (some ⟨2⟩)
  rules.validate .espionage action = .ok ()
    ∧ ∃ legal ∈ rules.legalActions .espionage, rules.Equates .espionage action legal
  := by
  intro rules action
  have haccepted : rules.validate .espionage action = .ok () := by decide +kernel
  use haccepted
  apply legalActions_complete rules .espionage action rfl haccepted
  intro u card ability hu hcard hability _
  obtain rfl := Option.some.inj hu
  obtain rfl := Option.some.inj hcard
  obtain rfl := Option.some.inj hability
  rfl

/-- What the action aims the ability in a slot at. -/
def Action.aim? (slot : UInt8) : Action → Option Uid
  | .activate _ _ used target => if used = slot then target else none
  | _ => none

/-- A spy can aim its ability to spy at an enemy, but no legal action has the same result. -/
theorem legalActions_omit_aimed :
  let rules : Ruleset := { catalog := ⟨[.spy], by decide⟩ }
  let action : Action := .activate 0 ⟨1⟩ 1 (some ⟨2⟩)
  rules.validate .espionage action = .ok ()
    ∧ ∀ legal ∈ rules.legalActions .espionage, ¬rules.Equates .espionage action legal
  := by
  intro rules action
  let hand (action : Action) : Option (List String) :=
    (rules.resolve .espionage action).toOption.map (·.battle.side0.hand)
  have haimed : hand action = some ["scout"] := by decide +kernel
  have hunaimed : hand (.activate 0 ⟨1⟩ 1 none) = some [] := by decide +kernel
  have hlisted : ∀ legal ∈ rules.legalActions .espionage, legal.aim? 1 = none := by
    decide +kernel
  constructor
  · decide +kernel
  · rintro _ hlegal ⟨target, rfl, hsame⟩
    cases target with
    | none =>
      have hhand : hand (.activate 0 ⟨1⟩ 1 none) = hand action := by
        simp only [hand, hsame, action]
      rw [haimed, hunaimed] at hhand
      cases hhand
    | some target => cases hlisted _ hlegal

end CardBattle
