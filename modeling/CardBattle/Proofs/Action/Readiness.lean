import CardBattle.Proofs.Action.Run
import CardBattle.Proofs.SortedMap.Lookup

/-!
# Abilities that get ready

Whether the active ability of a unit in a slot can be used depends on three counters: whether
it was used in this turn, its cooldown, and the uses that it has left (`Readiness`).  They
stand in different places, but every accepted action moves them together: the use of the
ability spends it, the end of a turn gives it rest, and nothing else that happens in a battle
changes them (`resolve_readies`).  An ability that is used is ready (`resolve_ready`).
-/

namespace CardBattle

open Change

/-- How far the active ability of a unit in a slot is from its next use. -/
structure Readiness where
  /-- Whether the ability was used in this turn. -/
  used : Bool
  /-- The number of turns that have to end before the next use. -/
  cooldown : UInt32
  /-- The uses that are left, if their number is limited. -/
  left : Option UInt32
deriving DecidableEq

namespace Readiness

/-- The ability can be used. -/
structure IsReady (r : Readiness) : Prop where
  unused : r.used = false
  cool : r.cooldown = 0
  left : r.left ≠ some 0

/-- The readiness after the end of a turn. -/
def rest (r : Readiness) : Readiness :=
  { r with used := false, cooldown := BoardUnit.coolDown r.cooldown }

/-- The readiness after the use of an ability with a cooldown. -/
def spend (cooldown : UInt32) (r : Readiness) : Readiness :=
  { used := true, cooldown, left := r.left.map BoardUnit.coolDown }

end Readiness

theorem toNat_coolDown (n : UInt32) :
  (BoardUnit.coolDown n).toNat = n.toNat - 1
  := by
  have hn := n.toNat_lt
  apply UInt32.toNat_ofNat_of_lt'
  change _ < 2 ^ 32
  omega

/-- The readiness of the ability of the unit in a slot, given the abilities that its owner
has used in this turn. -/
def BoardUnit.readiness (slot : UInt8) (used : SortedSet Usage) (u : BoardUnit) : Readiness :=
  { used := used.contains ⟨u.uid, slot⟩
    cooldown := (u.cooldowns.find? slot).getD 0
    left := u.usesLeft.find? slot }

namespace Action

/-- Whether the action is a use of the ability in a slot of the unit of a uid. -/
def isUseOf (uid : Uid) (slot : UInt8) : Action → Bool
  | .activate _ unit s _ => unit = uid && s = slot
  | _ => false

/-- What the action makes of the readiness of the ability in a slot of the unit of a uid,
where the ability has a cooldown. -/
def ready (action : Action) (uid : Uid) (slot : UInt8) (cooldown : UInt32) :
    Readiness → Readiness :=
  if action.endsTurn then Readiness.rest
  else if action.isUseOf uid slot then Readiness.spend cooldown
  else id

end Action

/-- The active ability in a slot of the unit of a uid. -/
def Ruleset.abilityOf? (rules : Ruleset) (b : Battle) (uid : Uid) (slot : UInt8) :
    Option Ability :=
  (b.find? uid).bind fun u => (rules.cardOf? u).bind (·.activeAbility? slot)

/-- The cooldown of the active ability in a slot of the unit of a uid. -/
def Ruleset.cooldownOf (rules : Ruleset) (b : Battle) (uid : Uid) (slot : UInt8) : UInt32 :=
  ((rules.abilityOf? b uid slot).bind Ability.cooldown).getD 0

namespace Battle

/-- The readiness of the ability in a slot of the unit of a uid. -/
def readiness? (b : Battle) (uid : Uid) (slot : UInt8) : Option Readiness :=
  (b.find? uid).bind fun u => (b.side? u.owner).map fun side => u.readiness slot side.used

/-- A uid that was issued stays so, and if a unit has it afterwards, then one had it before,
and `f` says what has become of the readiness of its ability. -/
structure Readies (uid : Uid) (slot : UInt8) (f : Readiness → Readiness) (b b' : Battle) :
    Prop where
  issued : b'.uids.hasIssued uid
  ready : ∀ r', b'.readiness? uid slot = some r' → ∃ r, b.readiness? uid slot = some r ∧ r' = f r

variable {b m b' : Battle} {uid : Uid} {slot : UInt8} {f g : Readiness → Readiness}
  {player : UInt8}

theorem readiness?_eq_some {r : Readiness} :
  b.readiness? uid slot = some r ↔ ∃ u side, b.find? uid = some u
    ∧ b.side? u.owner = some side ∧ r = u.readiness slot side.used
  := by
  simp only [readiness?, Option.bind_eq_some_iff, Option.map_eq_some_iff]
  constructor
  · rintro ⟨u, hu, side, hside, rfl⟩
    exact ⟨u, side, hu, hside, rfl⟩
  · rintro ⟨u, side, hu, hside, rfl⟩
    exact ⟨u, hu, side, hside, rfl⟩

theorem Readies.trans (h : b.Readies uid slot f m) (h' : m.Readies uid slot g b') :
  b.Readies uid slot (g ∘ f) b'
  := by
  use h'.issued
  intro r hr
  obtain ⟨s, hs, rfl⟩ := h'.ready r hr
  obtain ⟨t, ht, rfl⟩ := h.ready s hs
  exact ⟨t, ht, rfl⟩

/-- Where the readiness is the same, nothing has become of it. -/
theorem readies_of_eq (huids : b'.uids = b.uids)
    (h : b'.readiness? uid slot = b.readiness? uid slot) (huid : b.uids.hasIssued uid) :
  b.Readies uid slot id b'
  := by
  constructor
  · rw [huids]
    apply huid
  · intro r hr
    exact ⟨r, h ▸ hr, rfl⟩

/-- A side after a change that keeps account of the turn keeps the record of the side from
before. -/
theorem Keeps.side? (h : b.Keeps b') {t : Side} (ht : b'.side? player = some t) :
  ∃ s, b.side? player = some s ∧ s.Keeps t
  := by
  obtain ⟨rfl, rfl⟩ | ⟨rfl, rfl⟩ := side?_cases ht
  · exact ⟨_, rfl, h.side0⟩
  · exact ⟨_, rfl, h.side1⟩

/-- What keeps account of the turn leaves all abilities as ready as they were. -/
theorem Coherent.keeps_readies (hb : b.Coherent) (h : b.Keeps b')
    (huid : b.uids.hasIssued uid) (slot : UInt8) :
  b.Readies uid slot id b'
  := by
  constructor
  · rw [h.uids]
    apply huid
  · intro r hr
    obtain ⟨v, t, hv, ht, rfl⟩ := readiness?_eq_some.mp hr
    obtain ⟨u, hu, huv⟩ := h.find? hb hv
    obtain ⟨s, hs, hst⟩ := h.side? ht
    refine ⟨_, readiness?_eq_some.mpr ⟨u, s, hu, huv.owner ▸ hs, rfl⟩, ?_⟩
    simp only [BoardUnit.readiness, huv.uid, huv.cooldowns, huv.usesLeft, hst.used, id_eq]

/-- No ability of another unit is concerned when a unit is deployed. -/
theorem Coherent.deploys_readies (hb : b.Coherent) {handIndex : UInt64} {cell : Cell}
    {card : Card} (h : b.Deploys player handIndex cell card b')
    (huid : b.uids.hasIssued uid) (slot : UInt8) :
  b.Readies uid slot id b'
  := by
  use h.hasIssued huid
  intro r hr
  obtain ⟨u, t, hu, ht, rfl⟩ := readiness?_eq_some.mp hr
  have hunit : u ∈ b.units := by
    rcases List.mem_append.mp (h.units_perm.subset (mem_of_find? hu)) with hunit | hnew
    · apply hunit
    · obtain rfl := List.mem_singleton.mp hnew
      exact absurd (find?_uid hu).symm (UidCounter.ne_of_hasIssued huid)
  have hfound := find?_of_mem hb.distinct hunit
  rw [find?_uid hu] at hfound
  have hused : ∃ s, b.side? u.owner = some s ∧ t.used = s.used := by
    obtain ⟨next, side, i, board, line, -, hside, -, -, -, rfl⟩ := h
    obtain ⟨rfl, rfl⟩ | ⟨rfl, rfl⟩ := side?_cases hside <;>
    · obtain ⟨howner, rfl⟩ | ⟨howner, rfl⟩ := side?_cases ht <;>
      · rw [howner]
        exact ⟨_, rfl, rfl⟩
  obtain ⟨s, hs, hused⟩ := hused
  refine ⟨_, readiness?_eq_some.mpr ⟨u, s, hfound, hs, rfl⟩, ?_⟩
  rw [hused, id_eq]

/-- Where a unit is replaced, its own abilities are as ready as it says and all others as
ready as they were. -/
theorem Coherent.readiness?_replace (hb : b.Coherent) {u v : BoardUnit}
    (hu : b.find? u.uid = some u) (huid : v.uid = u.uid) (uid : Uid) (slot : UInt8) :
  (b.replace v).readiness? uid slot =
    if uid = u.uid then (b.side? v.owner).map fun side => v.readiness slot side.used
    else b.readiness? uid slot
  := by
  have hused : ∀ w : BoardUnit,
      ((b.replace v).side? w.owner).map (fun side => w.readiness slot side.used)
        = (b.side? w.owner).map fun side => w.readiness slot side.used := by
    intro w
    have h := congrArg (Option.map (w.readiness slot)) (used_replace b v w.owner)
    rwa [Option.map_map, Option.map_map] at h
  simp only [readiness?, hb.find?_replace hu huid, hused]
  split
  · rfl
  · rfl

/-- A unit is replaced that keeps its counters. -/
theorem Coherent.replace_readies (hb : b.Coherent) {u v : BoardUnit}
    (hu : b.find? u.uid = some u) (hpersists : u.Persists v)
    (hcooldowns : v.cooldowns = u.cooldowns) (husesLeft : v.usesLeft = u.usesLeft)
    (huid : b.uids.hasIssued uid) (slot : UInt8) :
  b.Readies uid slot id (b.replace v)
  := by
  apply readies_of_eq (replace_uids b v) _ huid
  rw [hb.readiness?_replace hu hpersists.uid]
  split
  · next h =>
    subst h
    simp only [readiness?, hu, Option.bind_some, BoardUnit.readiness, hpersists.owner,
      hpersists.uid, hcooldowns, husesLeft]
  · rfl

/-- A strike leaves all abilities as ready as they were. -/
theorem Coherent.strike_readies (hb : b.Coherent) {attacker target : BoardUnit} {amount : Int32}
    (htarget : b.find? target.uid = some target)
    (h : Ruleset.strike b attacker target = .ok (b', amount))
    (huid : b.uids.hasIssued uid) (slot : UInt8) :
  b.Readies uid slot id b'
  := by
  obtain ⟨hurt, hhurt, hrest⟩ := Ruleset.strike_ok h
  have hkeeps := (BoardUnit.takeDamage_restats hhurt).keeps
  have hstruck := hb.replace_readies htarget hkeeps.toPersists hkeeps.cooldowns hkeeps.usesLeft
    huid slot
  obtain ⟨-, rfl⟩ | ⟨u, modifiers, hu, rfl⟩ := hrest
  · apply hstruck
  · have hcoherent := hb.replace htarget (BoardUnit.Engages.hurt hhurt).endures
    rw [← find?_uid hu] at hu
    apply hstruck.trans (g := id)
    apply hcoherent.replace_readies hu _ _ _ hstruck.issued slot
    · exact ⟨rfl, rfl, rfl⟩
    · rfl
    · rfl

/-- What is noted in the side of a player as used. -/
theorem side?_markUsed {side : Side} (hside : b.side? player = some side) (usage : Usage)
    {owner : UInt8} {t : Side}
    (ht : (b.setSide player (side.markUsed usage)).side? owner = some t) :
  ∃ s, b.side? owner = some s
    ∧ ∀ usage', t.used.contains usage' = (decide (owner = player ∧ usage' = usage)
      || s.used.contains usage')
  := by
  obtain ⟨rfl, rfl⟩ | ⟨rfl, rfl⟩ := side?_cases hside <;>
  · obtain ⟨rfl, rfl⟩ | ⟨rfl, rfl⟩ := side?_cases ht <;>
    · refine ⟨_, rfl, ?_⟩
      intro usage'
      simp [setSide, Side.markUsed]

/-- No ability of another unit is concerned when a use is noted in the side of a player. -/
theorem markUsed_readies {side : Side} (hside : b.side? player = some side) {unit : Uid}
    {s : UInt8} (hne : uid ≠ unit) (huid : b.uids.hasIssued uid) :
  b.Readies uid slot id (b.setSide player (side.markUsed ⟨unit, s⟩))
  := by
  constructor
  · rw [setSide_uids]
    apply huid
  · intro r hr
    obtain ⟨v, t, hv, ht, rfl⟩ := readiness?_eq_some.mp hr
    obtain ⟨s', hs', hused⟩ := side?_markUsed hside _ ht
    have hv' : b.find? uid = some v := by
      rw [← hv, find?, find?, units_shift (t := side.markUsed _) hside rfl]
    refine ⟨_, readiness?_eq_some.mpr ⟨v, s', hv', hs', rfl⟩, ?_⟩
    simp [BoardUnit.readiness, hused, find?_uid hv, hne]

/-- A unit that is still on a board notes the use of its ability. -/
theorem Coherent.afterUse_readies (hb : b.Coherent) {side : Side}
    (hside : b.side? player = some side) {u : BoardUnit} (hu : b.find? u.uid = some u)
    (howner : u.owner = player) (huid : b.uids.hasIssued u.uid) (s : UInt8) (ability : Ability)
    (slot : UInt8) :
  b.Readies u.uid slot (if s = slot then Readiness.spend (ability.cooldown.getD 0) else id)
    ((b.setSide player (side.markUsed ⟨u.uid, s⟩)).replace (Ruleset.afterUse s ability u))
  := by
  have hm := hb.shift (s := side.markUsed ⟨u.uid, s⟩) hside rfl
  have hmarked : (b.setSide player (side.markUsed ⟨u.uid, s⟩)).find? u.uid = some u := by
    rw [← hu, find?, find?, units_shift (t := side.markUsed _) hside rfl]
  constructor
  · rw [replace_uids, setSide_uids]
    apply huid
  · intro r hr
    rw [hm.readiness?_replace (v := Ruleset.afterUse s ability u) hmarked rfl, if_pos rfl] at hr
    obtain ⟨t, ht, rfl⟩ := Option.map_eq_some_iff.mp hr
    obtain ⟨s', hs', hused⟩ := side?_markUsed hside _ ht
    refine ⟨_, readiness?_eq_some.mpr ⟨u, s', hu, hs', rfl⟩, ?_⟩
    by_cases hslot : s = slot
    · subst hslot
      rw [if_pos rfl]
      simp [BoardUnit.readiness, Readiness.spend, Ruleset.afterUse, hused, howner]
    · rw [if_neg hslot]
      simp [BoardUnit.readiness, Ruleset.afterUse, hused, Ne.symm hslot]

/-- The use of an ability is noted for it and for no other one. -/
theorem Coherent.uses_readies (hb : b.Coherent) {unit : Uid} {s : UInt8} {ability : Ability}
    (h : b.Uses player unit s ability b') (howner : ∀ u, b.find? unit = some u → u.owner = player)
    (huid : b.uids.hasIssued uid) (slot : UInt8) :
  b.Readies uid slot
    (if unit = uid ∧ s = slot then Readiness.spend (ability.cooldown.getD 0) else id) b'
  := by
  obtain ⟨side, m, hside, rfl, hrest⟩ := h
  have hm := hb.shift (s := side.markUsed ⟨unit, s⟩) hside rfl
  obtain ⟨hnone, rfl⟩ | ⟨u, hu, rfl⟩ := hrest
  · by_cases hne : uid = unit
    · -- The unit has left the boards, and no unit has its uid any more.
      subst hne
      constructor
      · rw [setSide_uids]
        apply huid
      · intro r hr
        obtain ⟨v, t, hv, -, -⟩ := readiness?_eq_some.mp hr
        rw [hnone] at hv
        cases hv
    · rw [if_neg (by tauto)]
      apply markUsed_readies hside hne huid
  · obtain rfl := find?_uid hu
    by_cases hne : uid = u.uid
    · subst hne
      rw [find?, units_shift (t := side.markUsed _) hside rfl] at hu
      simp only [true_and]
      apply hb.afterUse_readies hside hu (howner u hu) huid
    · rw [if_neg (by tauto)]
      have hmarked : b.Readies uid slot id (b.setSide player (side.markUsed ⟨u.uid, s⟩)) :=
        markUsed_readies hside hne huid
      constructor
      · rw [replace_uids]
        apply hmarked.issued
      · intro r hr
        rw [hm.readiness?_replace (v := Ruleset.afterUse s ability u) hu rfl, if_neg hne] at hr
        apply hmarked.ready r hr

/-- The end of a turn for the units gives all abilities rest. -/
theorem endCycle_readies
    (h : ({ b with side0.used := ∅, side1.used := ∅ }).changeAll BoardUnit.endCycle = .ok b')
    (huid : b.uids.hasIssued uid) (slot : UInt8) :
  b.Readies uid slot Readiness.rest b'
  := by
  have hfound : Option.Rel (fun u v => u.endCycle = .ok v) (b.find? uid) (b'.find? uid) :=
    find?_changeAll (fun u v hv => (BoardUnit.endCycle_endures hv).uid) h uid
  obtain ⟨board0, -, h⟩ := bind_eq_ok.mp h
  obtain ⟨board1, -, h⟩ := bind_eq_ok.mp h
  obtain rfl := pure_eq_ok.mp h
  use huid
  intro r hr
  obtain ⟨v, t, hv, ht, rfl⟩ := readiness?_eq_some.mp hr
  rw [hv] at hfound
  obtain ⟨u, hu, huv⟩ : ∃ u, b.find? uid = some u ∧ u.endCycle = .ok v := by
    generalize b.find? uid = found at hfound
    cases hfound with
    | some huv => exact ⟨_, rfl, huv⟩
  have hended := BoardUnit.endCycle_endures huv
  have hside : ∃ s, b.side? u.owner = some s ∧ t.used = ∅ := by
    rw [← hended.owner]
    obtain ⟨howner, rfl⟩ | ⟨howner, rfl⟩ := side?_cases ht <;>
    · rw [howner]
      exact ⟨_, rfl, rfl⟩
  obtain ⟨s, hs, hused⟩ := hside
  refine ⟨_, readiness?_eq_some.mpr ⟨u, s, hu, hs, rfl⟩, ?_⟩
  obtain ⟨w, hw, huv⟩ := bind_eq_ok.mp huv
  obtain rfl := pure_eq_ok.mp huv
  have hkeeps := (BoardUnit.expireBuffs_restats hw).keeps
  simp only [BoardUnit.readiness, Readiness.rest, hused, hkeeps.cooldowns, hkeeps.usesLeft,
    SortedMap.find?_mapValues]
  cases u.cooldowns.find? slot with
  | none => rfl
  | some n => rfl

end Battle

namespace Ruleset

variable {rules : Ruleset} {b b' : Battle} {player : UInt8} {uid : Uid} {slot : UInt8}

/-! ### What accepted actions make of abilities -/

/-- An attack leaves all abilities as ready as they were. -/
theorem attackUnit_readies (hb : b.Coherent) {attacker target : Uid}
    (h : (rules.attackUnit player attacker target).Leads b b') (huid : b.uids.hasIssued uid)
    (slot : UInt8) :
  b.Readies uid slot id b'
  := by
  obtain ⟨m, -, hm, hdeclared, hrest⟩ := attackUnit_keeps hb h
  have hb' := hb.noteAttacker attacker
  have hstart : b.Readies uid slot id
      { b with firstAttacker := b.firstAttacker <|> some attacker } :=
    Battle.readies_of_eq rfl rfl huid
  have hdeclared := hb'.keeps_readies hdeclared huid slot
  obtain ⟨-, hkeeps⟩ | ⟨att, tgt, m₁, amount, -, htgt, hstrike, hkeeps⟩ := hrest
  · exact hstart.trans (hdeclared.trans (hm.keeps_readies hkeeps hdeclared.issued slot))
  · have hstruck := hm.strike_readies htgt hstrike hdeclared.issued slot
    have hm₁ := hm.strike htgt hstrike
    exact hstart.trans (hdeclared.trans
      (hstruck.trans (hm₁.keeps_readies hkeeps hstruck.issued slot)))

/-- The end of a turn gives all abilities rest. -/
theorem endTurn_readies (hb : b.Coherent) (h : rules.endTurn.Leads b b')
    (huid : b.uids.hasIssued uid) (slot : UInt8) :
  b.Readies uid slot Readiness.rest b'
  := by
  obtain ⟨m₁, m₂, m₃, ⟨hchange, hm₁⟩, ⟨hsweep, hm₂⟩, ⟨hpasses, hm₃⟩, hrest⟩ :=
    endTurn_coherent hb h
  have hended := Battle.endCycle_readies hchange huid slot
  have hswept := hm₁.keeps_readies (hm₁.moves_keep (rules.sweep_moves hsweep)) hended.issued slot
  have hnext : m₂.Readies uid slot id m₃ := by
    apply Battle.readies_of_eq hpasses.uids _ hswept.issued
    simp only [Battle.readiness?, Battle.find?, hpasses.units, Battle.side?, hpasses.side0,
      hpasses.side1]
  have hrest := hm₃.keeps_readies (emitAndRefresh_keeps hm₃ hrest) hnext.issued slot
  exact hended.trans (hswept.trans (hnext.trans hrest))

/-- An ability that can be used is ready. -/
theorem checkActivation_ready {target : Option Uid} {ability : Ability}
    (h : rules.checkActivation b player uid slot target = .ok ability) :
  rules.abilityOf? b uid slot = some ability
    ∧ ∃ r, b.readiness? uid slot = some r ∧ r.IsReady
  := by
  obtain ⟨u, hu, h⟩ := bind_eq_ok.mp h
  obtain ⟨hfind, rfl⟩ := Battle.ownedUnit_eq_ok.mp hu
  split at h
  · cases h
  · next found hfound =>
    obtain ⟨_, hready, h⟩ := bind_eq_ok.mp h
    obtain ⟨side, hside, h⟩ := bind_eq_ok.mp h
    obtain ⟨_, hcost, h⟩ := bind_eq_ok.mp h
    obtain ⟨_, -, h⟩ := bind_eq_ok.mp h
    obtain rfl := pure_eq_ok.mp h
    have hside := Battle.sideOf_eq_ok.mp hside
    obtain ⟨_, -, hready⟩ := bind_eq_ok.mp hready
    obtain ⟨_, hcool, hleft⟩ := bind_eq_ok.mp hready
    obtain ⟨_, hunused, -⟩ := bind_eq_ok.mp hcost
    constructor
    · rw [abilityOf?, hfind]
      apply hfound
    · refine ⟨_, Battle.readiness?_eq_some.mpr ⟨u, side, hfind, hside, rfl⟩, ?_⟩
      constructor
      · simpa [Side.hasUsed, BoardUnit.readiness, Battle.find?_uid hfind]
          using Rejection.unless_eq_ok.mp hunused
      · apply Rejection.unless_eq_ok.mp hcool
      · apply Rejection.unless_eq_ok.mp hleft

/-- The permit for a use of an ability. -/
theorem permit_use {target : Option Uid} {permit : Permit}
    (h : rules.permit b (.activate player uid slot target) = .ok permit) :
  ∃ ability, permit = .activate player uid slot target ability
    ∧ rules.checkActivation b player uid slot target = .ok ability
  := by
  obtain ⟨_, -, h⟩ := bind_eq_ok.mp h
  obtain ⟨ability, hability, h⟩ := bind_eq_ok.mp h
  exact ⟨ability, (pure_eq_ok.mp h).symm, hability⟩

variable {action : Action} {resolution : Resolution}

/-- An ability whose use is accepted is ready. -/
theorem resolve_ready (haction : action.isUseOf uid slot)
    (h : rules.resolve b action = .ok resolution) :
  ∃ r, b.readiness? uid slot = some r ∧ r.IsReady
  := by
  obtain ⟨permit, report, hpermit, -⟩ := resolve_ok h
  cases action with
  | activate player unit s target =>
    obtain ⟨rfl, rfl⟩ : unit = uid ∧ s = slot := by simpa [Action.isUseOf] using haction
    obtain ⟨ability, -, hcheck⟩ := permit_use hpermit
    apply (checkActivation_ready hcheck).2
  | _ => cases haction

/-- An accepted action spends the ability that it is a use of, gives all abilities rest when
it ends the turn, and leaves abilities as ready as they were otherwise. -/
theorem resolve_readies (h : rules.resolve b action = .ok resolution)
    (huid : b.uids.hasIssued uid) (slot : UInt8) :
  b.Readies uid slot (action.ready uid slot (rules.cooldownOf b uid slot)) resolution.battle
  := by
  obtain ⟨permit, report, hpermit, hcarry⟩ := resolve_ok h
  have hgrants := permit_grants hpermit
  obtain ⟨hintegrity, hchecked⟩ := permit_ok hpermit
  have hb := (Battle.corruption?_eq_none_iff.mp hintegrity).toCoherent
  cases permit with
  | playUnit player handIndex cell card =>
    cases hgrants
    obtain ⟨m, hdeploys, hkeeps⟩ := playUnit_keeps hb hcarry
    have hdeployed := hb.deploys_readies hdeploys huid slot
    have hm := hb.deploys hdeploys
    exact hdeployed.trans (hm.keeps_readies hkeeps hdeployed.issued slot)
  | move player unit cell =>
    cases hgrants
    apply hb.keeps_readies (moveUnit_keeps hb hcarry) huid
  | attack player attacker target =>
    cases hgrants
    apply attackUnit_readies hb ⟨report, lift_fault_eq_ok.mp hcarry⟩ huid
  | activate player unit s target ability =>
    cases hgrants
    obtain ⟨ability', heq, hcheck⟩ := permit_use hpermit
    cases heq
    obtain ⟨m, hkeeps, hm, huses⟩ := activate_keeps hb hcarry
    have hkept := hb.keeps_readies hkeeps huid slot
    obtain ⟨-, u, -, -, hu, howner, -⟩ := hchecked
    have howner : ∀ v, m.find? unit = some v → v.owner = player := by
      intro v hv
      obtain ⟨u', hu', huv⟩ := hkeeps.find? hb hv
      obtain rfl := Option.some.inj (hu.symm.trans hu')
      rw [huv.owner, howner]
    have hused := hkept.trans (hm.uses_readies huses howner hkept.issued slot)
    rw [Action.ready, if_neg (by simp [Action.endsTurn])]
    by_cases huse : unit = uid ∧ s = slot
    · obtain ⟨rfl, rfl⟩ := huse
      rw [if_pos (by simp [Action.isUseOf]), cooldownOf, (checkActivation_ready hcheck).1]
      rw [if_pos ⟨rfl, rfl⟩] at hused
      exact hused
    · rw [if_neg (by simpa [Action.isUseOf] using huse)]
      rw [if_neg huse] at hused
      exact hused
  | endTurn =>
    obtain ⟨player, rfl⟩ := hgrants
    apply endTurn_readies hb ⟨report, lift_fault_eq_ok.mp hcarry⟩ huid

end Ruleset

end CardBattle
