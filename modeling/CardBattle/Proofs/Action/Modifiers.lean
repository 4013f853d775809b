import CardBattle.Proofs.Action.Handover
import CardBattle.Proofs.Action.History
import CardBattle.Proofs.Action.Lethal

/-!
# Attack modifiers are used once

Whatever happens in cascades only adds attack modifiers to a unit, behind those that it has.
An attack consumes the first modifier of the attacker that none has consumed before, and it is
this one that the damage in the log is reckoned with (`Connects.spends`).  No other action
consumes a modifier or restores one, and the end of a turn takes along only some that no attack
has consumed (`resolve_supplies`).  So a modifier can be followed through a run by its place,
and once it is consumed it stays so: no modifier serves two attacks (`modifiers_used_once`).
-/

namespace CardBattle

open Change
open AttackModifier (Adds Carries Follows Spends)

namespace BoardUnit

/-- The unit is still the same, and attack modifiers that are not consumed have come behind
those that it had. -/
structure Stocks (u v : BoardUnit) : Prop extends Persists u v where
  modifiers : Adds u.modifiers v.modifiers

variable {u v w : BoardUnit} {allowed : Stat → Prop}

theorem Stocks.refl (u : BoardUnit) :
  u.Stocks u
  := ⟨.refl u, .refl _⟩

theorem Stocks.trans (huv : u.Stocks v) (hvw : v.Stocks w) :
  u.Stocks w
  := ⟨huv.toPersists.trans hvw.toPersists, huv.modifiers.trans hvw.modifiers⟩

theorem Restats.stocks (h : u.Restats v) :
  u.Stocks v
  := by
  rw [h]
  exact ⟨⟨rfl, rfl, rfl⟩, .refl _⟩

/-- An alteration takes no attack modifier away. -/
theorem Alters.stocks (h : u.Alters allowed v) :
  u.Stocks v
  := by
  cases h with
  | damage h => apply (takeDamage_restats h).stocks
  | heal h => apply (heal_restats h).stocks
  | modify _ h => apply (addBuff_restats h).stocks
  | mark h => exact ⟨h.endures.toPersists, h.modifiers⟩

theorem Stocks.isTie :
  IsTie (fun _ => True) Stocks
  := by
  constructor
  case refl => exact Stocks.refl
  case trans => exact fun _ _ _ => Stocks.trans
  case elsewhere => exact fun _ _ => ⟨⟨rfl, rfl, rfl⟩, .refl _⟩
  case does => exact fun _ _ _ _ hdoes => hdoes.1.alters.stocks

end BoardUnit

open BoardUnit (Stocks)

/-! ### Cascades -/

namespace Battle

variable {b m b' : Battle} {uid : Uid} {u v : BoardUnit}

theorem Coherent.moves_stock (hb : b.Coherent) (h : Moves b b') :
  b.Descends Stocks b'
  := hb.moves_descend Stocks.isTie (fun _ _ => BoardUnit.Alters.stocks) h

/-- A unit that is found before and after has stocked its modifiers in between. -/
theorem Descends.stocks (h : b.Descends Stocks b') (hb : b.Coherent)
    (hu : b.find? uid = some u) (hv : b'.find? uid = some v) :
  u.Stocks v
  := by
  obtain ⟨w, hw, hstocks⟩ := h.find? hb (fun _ _ hstocks => hstocks.uid) hv
  obtain rfl := Option.some.inj (hu.symm.trans hw)
  exact hstocks

/-- A unit that is found before a unit is deployed is found after it. -/
theorem Coherent.deploys_find? (hb : b.Coherent) {player : UInt8} {handIndex : UInt64}
    {cell : Cell} {card : Card} (h : b.Deploys player handIndex cell card b')
    (hu : b.find? uid = some u) :
  b'.find? uid = some u
  := by
  obtain rfl := find?_uid hu
  apply find?_of_mem (hb.deploys h).distinct
  apply h.units_perm.symm.subset
  exact List.mem_append_left _ (mem_of_find? hu)

/-- A strike consumes the modifier of the attacker that is pending, and no other. -/
theorem Coherent.strike_modifiers (hb : b.Coherent) {att tgt : BoardUnit} {amount : Int32}
    (hatt : b.find? att.uid = some att) (htgt : b.find? tgt.uid = some tgt)
    (h : Ruleset.strike b att tgt = .ok (b', amount)) (hv : b'.find? uid = some v) :
  ∃ u, b.find? uid = some u
    ∧ v.modifiers = if uid = att.uid then u.spent.modifiers else u.modifiers
  := by
  obtain ⟨hurt, hhurt, hrest⟩ := Ruleset.strike_consumes h
  have hrestats := BoardUnit.takeDamage_restats hhurt
  have hendures := hrestats.endures fun _ => BoardUnit.takeDamage_bounded hhurt
  have hfound : ∀ {uid v}, (b.replace hurt).find? uid = some v →
      ∃ u, b.find? uid = some u ∧ v.modifiers = u.modifiers := by
    intro uid v hv
    rw [hb.find?_replace htgt hendures.uid] at hv
    split at hv
    · next huid =>
      subst huid
      obtain rfl := Option.some.inj hv
      exact ⟨tgt, htgt, by rw [hrestats]⟩
    · exact ⟨v, hv, rfl⟩
  obtain ⟨hnone, rfl⟩ | ⟨u, modifiers, hu, hspent, rfl⟩ := hrest
  · obtain ⟨u, hu, hmodifiers⟩ := hfound hv
    have hother : uid ≠ att.uid := by
      rintro rfl
      cases hnone.symm.trans hv
    exact ⟨u, hu, by rw [if_neg hother, hmodifiers]⟩
  · -- The attacker has its modifiers still, also where it has struck itself.
    obtain ⟨_, hatt', hsame⟩ := hfound hu
    obtain rfl := Option.some.inj (hatt.symm.trans hatt')
    have huid := find?_uid hu
    rw [← huid] at hu
    rw [(hb.replace htgt hendures).find?_replace hu (by rfl), huid] at hv
    split at hv
    · next h =>
      subst h
      obtain rfl := Option.some.inj hv
      exact ⟨att, hatt, by rw [if_pos rfl, hspent hsame]⟩
    · next h =>
      obtain ⟨w, hw, hmodifiers⟩ := hfound hv
      exact ⟨w, hw, by rw [if_neg h, hmodifiers]⟩

end Battle

namespace Ruleset

variable {rules : Ruleset} {b b' : Battle} {player : UInt8} {attacker target : Uid}

theorem emitAndRefresh_stocks (hb : b.Coherent) {event : Event} {first second : Trigger}
    (h : (rules.emitAndRefresh event first second).Leads b b') :
  b.Descends Stocks b'
  := emitAndRefresh_descends Stocks.isTie (q := fun _ => True) (fun _ _ => trivial)
      (fun trigger _ => rules.answersWith_any trigger)
      (fun _ _ hexpired => (BoardUnit.expireBuffs_restats hexpired).stocks)
      (fun lacks u => (u.keepLack_restats lacks).stocks) hb trivial trivial trivial h

/-! ### Attacks -/

/-- An attack that is not annulled: after its declaration both units are on the boards still. -/
structure Connects (rules : Ruleset) (player : UInt8) (attacker target : Uid)
    (b declared : Battle) (att tgt : BoardUnit) : Prop where
  declares : (rules.emit (.ofAttack .onAttackDeclare player attacker target)).Leads
    { b with firstAttacker := b.firstAttacker <|> some attacker } declared
  attacker : declared.find? attacker = some att
  target : declared.find? target = some tgt

variable {declared : Battle} {att tgt : BoardUnit}

/-- The declaration of an attack adds modifiers only. -/
theorem Connects.stocks (h : rules.Connects player attacker target b declared att tgt)
    (hb : b.Coherent) {u : BoardUnit} (hu : b.find? attacker = some u) :
  u.Stocks att
  := by
  have hb' := hb.noteAttacker attacker
  exact (hb'.moves_stock (rules.emit_moves _ _ _ h.declares)).stocks hb' hu h.attacker

/-- An attack that is annulled takes no modifier away and consumes none. -/
theorem attackUnit_annulled (hb : b.Coherent)
    (h : (rules.attackUnit player attacker target).Leads b b')
    (hannulled : ¬∃ declared att tgt, rules.Connects player attacker target b declared att tgt) :
  b.Descends Stocks b'
  := by
  obtain ⟨m, hdeclare, hrest⟩ := attackUnit_leads h
  have hb' := hb.noteAttacker attacker
  have hdeclared := hb'.moves_stock (rules.emit_moves _ _ _ hdeclare)
  obtain ⟨-, hlogs⟩ | ⟨att, tgt, m₁, amount, line, m₂, hatt, rfl, htgt, -⟩ := hrest
  · apply Battle.Descends.trans Stocks.isTie.trans hdeclared
    apply Battle.descends_of_units Stocks.refl hlogs.units_eq
  · exact absurd ⟨m, att, tgt, hdeclare, hatt, htgt⟩ hannulled

/-- An attack that is not annulled consumes the modifier of the attacker that is pending after
the declaration, and the line about it tells of the damage with this modifier.  All other
modifiers of all units are left as they are. -/
theorem Connects.spends (h : rules.Connects player attacker target b declared att tgt)
    (hb : b.Coherent) (hattack : (rules.attackUnit player attacker target).Leads b b') :
  ∃ struck lines later, strike declared att tgt = .ok (struck, att.damageTo tgt)
    ∧ b'.log = b.log
      ++ (lines ++ strikeLine struck player attacker target (att.damageTo tgt) :: later)
    ∧ ∀ uid u v, b.find? uid = some u → b'.find? uid = some v →
      if uid = attacker then Adds u.modifiers att.modifiers ∧ Adds att.spent.modifiers v.modifiers
      else Adds u.modifiers v.modifiers
  := by
  obtain ⟨m, hdeclare, hrest⟩ := attackUnit_tells hattack
  obtain rfl := hdeclare.unique h.declares
  have hb' := hb.noteAttacker attacker
  have hmoves := rules.emit_moves _ _ _ hdeclare
  have hm := hb'.moves hmoves
  obtain ⟨hnone | hnone, -⟩
      | ⟨att', tgt', struck, amount, hit, hatt, rfl, htgt, hstrike, hhit, hsweep⟩ := hrest
  · cases hnone.symm.trans h.attacker
  · cases hnone.symm.trans h.target
  obtain rfl := Option.some.inj (h.attacker.symm.trans hatt)
  obtain rfl := Option.some.inj (h.target.symm.trans htgt)
  obtain rfl := strike_amount hstrike
  obtain rfl := Battle.find?_uid hatt
  have hrecorded := (hm.strike htgt hstrike).logs (struck.record_logs
    (strikeLine struck player att.uid tgt.uid (att.damageTo tgt)))
  have hafter := (rules.emit_moves _ _ _ hhit).trans (rules.sweep_moves hsweep)
  obtain ⟨lines, hlines⟩ : b.log <+: m.log := (hb'.moves_keep hmoves).log
  obtain ⟨later, hlater⟩ := (hrecorded.moves_keep hafter).log
  refine ⟨struck, lines, later, hstrike, ?_, ?_⟩
  · rw [← hlater, Battle.record, strike_log hstrike, ← hlines]
    simp
  · intro uid u v hu hv
    obtain ⟨w, hw, hwv⟩ := (hrecorded.moves_stock hafter).find? hrecorded
      (fun _ _ hstocks => hstocks.uid) hv
    obtain ⟨x, hx, hmodifiers⟩ := hm.strike_modifiers hatt htgt hstrike hw
    have hux := (hb'.moves_stock hmoves).stocks hb' hu hx
    have hspent := hwv.modifiers
    rw [hmodifiers] at hspent
    split
    · next huid =>
      subst huid
      obtain rfl := Option.some.inj (hx.symm.trans hatt)
      rw [if_pos rfl] at hspent
      exact ⟨hux.modifiers, hspent⟩
    · next huid =>
      rw [if_neg huid] at hspent
      exact hux.modifiers.trans hspent

/-! ### Other actions -/

/-- Activations add modifiers only. -/
theorem activate_stocks (hb : b.Coherent) {uid : Uid} {slot : UInt8} {target : Option Uid}
    {ability : Ability} {r : Report}
    (h : rules.activate player uid slot target ability b = .ok (b', r)) :
  b.Descends Stocks b'
  := by
  obtain ⟨m, m', hpaid, hrun, side, marked, hside, rfl, huses⟩ := activate_ok h
  have hendures : ∀ u v : BoardUnit, u.Spares (fun _ => False) v → u.Endures v :=
    fun u v hspares => hspares.alters.endures
  have hm := hb.touches hendures hpaid
  have hmoves := rules.runActivation_moves hrun
  have hpaid : b.Descends Stocks m :=
    hb.touches_descends Stocks.isTie hendures (fun _ _ hspares => hspares.alters.stocks) hpaid
  have hnoted : m'.Descends Stocks (m'.setSide player (side.markUsed ⟨uid, slot⟩)) :=
    Battle.descends_of_units Stocks.refl (Battle.units_shift hside rfl)
  have hran := (hpaid.trans Stocks.isTie.trans (hm.moves_stock hmoves)).trans
    Stocks.isTie.trans hnoted
  obtain ⟨-, rfl⟩ | ⟨u, hu, rfl⟩ := huses
  · exact hran
  · apply hran.trans Stocks.isTie.trans
    obtain rfl := Battle.find?_uid hu
    have hmarked := (hm.moves hmoves).shift (s := side.markUsed ⟨u.uid, slot⟩) hside rfl
    apply hmarked.replace_descends Stocks.refl hu
    · rfl
    · exact ⟨⟨rfl, rfl, rfl⟩, .refl _⟩

/-- At the end of a turn a unit takes along the modifiers that stand, and others only come
behind these. -/
theorem endTurn_supplies (hb : b.Coherent) (h : rules.endTurn.Leads b b') {uid : Uid}
    {u v : BoardUnit} (hu : b.find? uid = some u) (hv : b'.find? uid = some v) :
  Adds u.standing v.modifiers
  := by
  obtain ⟨m, hchange, hrest⟩ := endTurn_descends Stocks.isTie (q := fun _ => True)
    (fun _ _ => trivial) (fun trigger _ => rules.answersWith_any trigger)
    (fun _ _ hexpired => (BoardUnit.expireBuffs_restats hexpired).stocks)
    (fun lacks u => (u.keepLack_restats lacks).stocks) trivial trivial trivial hb h
  have hb' : ({ b with side0.used := ∅, side1.used := ∅ } : Battle).Coherent :=
    hb.congr hb.active rfl rfl rfl
  have hm := hb'.changeAll (fun _ _ => BoardUnit.endCycle_endures) hchange
  obtain ⟨w, hw, hstocks⟩ := hrest.find? hm (fun _ _ hstocks => hstocks.uid) hv
  have hfound := Battle.find?_changeAll
    (fun _ _ hended => (BoardUnit.endCycle_endures hended).uid) hchange uid
  rw [hw] at hfound
  change Option.Rel _ (b.find? uid) _ at hfound
  rw [hu] at hfound
  cases hfound with
  | some hended =>
    rw [← BoardUnit.endCycle_standing hended]
    exact hstocks.modifiers

end Ruleset

namespace Action

/-- Whether the action is an attack. -/
def isAttack : Action → Bool
  | .attack .. => true
  | _ => false

end Action

namespace Ruleset

variable {rules : Ruleset} {b b' : Battle} {action : Action} {resolution : Resolution}
  {uid : Uid} {u v : BoardUnit}

/-- No action but an attack consumes a modifier or restores one: to the modifiers that a unit
has, or takes along to the next turn, others are added. -/
theorem resolve_supplies (haction : ¬action.isAttack)
    (h : rules.resolve b action = .ok resolution) (hu : b.find? uid = some u)
    (hv : resolution.battle.find? uid = some v) :
  Adds (if action.endsTurn then u.standing else u.modifiers) v.modifiers
  := by
  obtain ⟨permit, report, hpermit, hcarry⟩ := resolve_ok h
  have hgrants := permit_grants hpermit
  have hb := (Battle.corruption?_eq_none_iff.mp (permit_ok hpermit).1).toCoherent
  cases permit with
  | playUnit player handIndex cell card =>
    obtain rfl := hgrants
    obtain ⟨m, hdeploys, hrest⟩ := playUnit_ok hcarry
    have hm := hb.deploys hdeploys
    exact ((emitAndRefresh_stocks hm hrest).stocks hm (hb.deploys_find? hdeploys hu) hv).modifiers
  | move player unit cell =>
    obtain rfl := hgrants
    obtain ⟨m, hrelocates, hrest⟩ := moveUnit_ok hcarry
    obtain ⟨m', hrearranges, hcoherent, hlogs⟩ := hb.relocates hrelocates
    have hmoved : b.Descends Stocks m :=
      (hrearranges.descends Stocks.isTie.elsewhere).trans Stocks.isTie.trans
        (Battle.descends_of_units Stocks.refl hlogs.units_eq)
    have hdescends := hmoved.trans Stocks.isTie.trans
      (emitAndRefresh_stocks (hcoherent.logs hlogs) hrest)
    exact (hdescends.stocks hb hu hv).modifiers
  | attack player attacker target =>
    obtain rfl := hgrants
    exact absurd rfl haction
  | activate player unit slot target ability =>
    obtain rfl := hgrants
    exact ((activate_stocks hb hcarry).stocks hb hu hv).modifiers
  | endTurn =>
    obtain ⟨player, rfl⟩ := hgrants
    exact endTurn_supplies hb ⟨report, lift_fault_eq_ok.mp hcarry⟩ hu hv

/-- No attack has consumed a modifier of a unit that enters the battle. -/
theorem resolve_supplies_new (h : rules.resolve b action = .ok resolution)
    (hnew : b.find? uid = none) (hv : resolution.battle.find? uid = some v) :
  ∀ m ∈ v.modifiers, ¬m.consumed
  := by
  obtain rfl := Battle.find?_uid hv
  have hnot {u : BoardUnit} (hu : u ∈ b.units) (huid : v.uid = u.uid) : False :=
    Battle.uid_ne_of_find? hnew hu huid.symm
  rcases (resolve_continues h).units v (Battle.mem_of_find? hv) with ⟨u, hu, hpersists⟩ | henters
  · exact absurd hpersists.uid (hnot hu)
  · obtain ⟨permit, report, hpermit, hcarry⟩ := resolve_ok h
    have hgrants := permit_grants hpermit
    have hb := (Battle.corruption?_eq_none_iff.mp (permit_ok hpermit).1).toCoherent
    cases permit with
    | playUnit player handIndex cell card =>
      obtain rfl := hgrants
      obtain ⟨m, hdeploys, hrest⟩ := playUnit_ok hcarry
      have hm := hb.deploys hdeploys
      obtain ⟨w, hw, hstocks⟩ := emitAndRefresh_stocks hm hrest v (Battle.mem_of_find? hv)
      rcases List.mem_append.mp (hdeploys.units_perm.subset hw) with hw | hw
      · exact absurd hstocks.uid (hnot hw)
      · obtain rfl := List.mem_singleton.mp hw
        obtain ⟨fresh, hmodifiers, hfresh⟩ := hstocks.modifiers
        rw [hmodifiers]
        exact hfresh
    | endTurn =>
      obtain ⟨player, rfl⟩ := hgrants
      cases henters
    | _ =>
      obtain rfl := hgrants
      cases henters

/-- An attack leaves every modifier in its place. -/
theorem attackUnit_carries (hb : b.Coherent) {player : UInt8} {attacker target : Uid}
    (h : (rules.attackUnit player attacker target).Leads b b') (hu : b.find? uid = some u)
    (hv : b'.find? uid = some v) :
  Carries u.modifiers v.modifiers
  := by
  by_cases hconnects : ∃ declared att tgt, rules.Connects player attacker target b declared att tgt
  · obtain ⟨declared, att, tgt, hconnects⟩ := hconnects
    obtain ⟨struck, lines, later, -, -, hmodifiers⟩ := hconnects.spends hb h
    have hadds := hmodifiers uid u v hu hv
    split at hadds
    · exact (hadds.1.carries.trans att.spends.carries).trans hadds.2.carries
    · exact hadds.carries
  · exact ((attackUnit_annulled hb h hconnects).stocks hb hu hv).modifiers.carries

/-- An action leaves every modifier in its place, except that the end of a turn takes only some
of them along. -/
theorem resolve_carries (h : rules.resolve b action = .ok resolution)
    (hu : b.find? uid = some u) (hv : resolution.battle.find? uid = some v) :
  Carries (if action.endsTurn then u.standing else u.modifiers) v.modifiers
  := by
  by_cases haction : action.isAttack
  · cases action with
    | attack player attacker target =>
      obtain ⟨hb, -, hattack⟩ := resolve_attack h
      exact attackUnit_carries hb.toCoherent hattack hu hv
    | _ => cases haction
  · exact (resolve_supplies haction h hu hv).carries

end Ruleset

/-! ### Runs -/

/-- Whether the end of a turn leaves the modifier to its unit. -/
def AttackModifier.stands (m : AttackModifier) : Bool :=
  !m.consumed && !m.thisTurnOnly

/-- What is at a place of a list comes, if it passes a filter, to the place after those before
it that pass as well. -/
theorem getElem?_filter_of_pass {α : Type} {p : α → Bool} {l : List α} {place : Nat} {a : α}
    (h : l[place]? = some a) (ha : p a) :
  (l.filter p)[(l.take place).countP p]? = some a
  := by
  obtain ⟨hplace, rfl⟩ := List.getElem?_eq_some_iff.mp h
  have hsplit : l.filter p = (l.take place).filter p ++ (l.drop place).filter p := by
    rw [← List.filter_append, List.take_append_drop]
  rw [hsplit, List.drop_eq_getElem_cons hplace, List.filter_cons_of_pos ha,
    List.countP_eq_length_filter, List.getElem?_append_right (Nat.le_refl _), Nat.sub_self]
  rfl

namespace BoardUnit

/-- The place to which the end of a turn takes the modifier at a place, if it takes it along. -/
def placeTaken? (u : BoardUnit) (place : Nat) : Option Nat :=
  if u.modifiers[place]?.any AttackModifier.stands then
    some ((u.modifiers.take place).countP AttackModifier.stands)
  else none

/-- The modifier is at the place to which it is taken. -/
theorem standing_of_placeTaken {u : BoardUnit} {place place' : Nat} {m : AttackModifier}
    (hm : u.modifiers[place]? = some m) (h : u.placeTaken? place = some place') :
  u.standing[place']? = some m
  := by
  rw [placeTaken?, hm] at h
  split at h
  · next hstands =>
    obtain rfl := Option.some.inj h
    exact getElem?_filter_of_pass hm hstands
  · cases h

end BoardUnit

/-- The place at which the modifier of a unit at a place is after some steps, unless the end of a
turn has not taken it along.  Only the end of a turn moves modifiers to other places. -/
def followModifier? (uid : Uid) : List (Battle × Action) → Nat → Option Nat
  | [], place => some place
  | (b, action) :: steps, place =>
      if action.endsTurn then do
        let u ← b.find? uid
        followModifier? uid steps (← u.placeTaken? place)
      else followModifier? uid steps place

namespace Ruleset

variable {rules : Ruleset} {b b' : Battle} {uid : Uid} {steps : List (Battle × Action)}

/-- A unit that is there before an action and after the run that it begins is there in between:
no uid comes back. -/
theorem Run.exists_find? {action : Action} {resolution : Resolution} {u v : BoardUnit}
    (hstep : rules.resolve b action = .ok resolution) (hu : b.find? uid = some u)
    (h : rules.Run resolution.battle steps b') (hv : b'.find? uid = some v) :
  ∃ w, resolution.battle.find? uid = some w
  := by
  have hissued := (resolve_continues hstep).hasIssued (resolve_issued hstep hu)
  apply Option.ne_none_iff_exists'.mp
  intro hgone
  cases hv.symm.trans (h.find?_eq_none hissued hgone)

/-- A modifier that is followed through a run is there with its boost, and it is consumed if it
was before. -/
theorem Run.follows (h : rules.Run b steps b') {u v : BoardUnit} {place place' : Nat}
    {m : AttackModifier} (hu : b.find? uid = some u) (hv : b'.find? uid = some v)
    (hm : u.modifiers[place]? = some m) (hplace : followModifier? uid steps place = some place') :
  ∃ m', v.modifiers[place']? = some m' ∧ m.Follows m'
  := by
  induction h generalizing u place m with
  | nil b =>
    obtain rfl := Option.some.inj (hu.symm.trans hv)
    obtain rfl := Option.some.inj hplace
    exact ⟨m, hm, .refl m⟩
  | @cons b b' action resolution steps hstep hrest ih =>
    obtain ⟨w, hw⟩ := hrest.exists_find? hstep hu hv
    have hcarries := resolve_carries hstep hu hw
    -- What the action leaves of the modifiers of the unit, it leaves in place.
    obtain ⟨left, hleft, hrest⟩ : ∃ left,
        (if action.endsTurn then u.standing else u.modifiers)[left]? = some m
          ∧ followModifier? uid steps left = some place' := by
      rw [followModifier?] at hplace
      split at hplace
      · next hends =>
        obtain ⟨_, hfind, hplace⟩ := Option.bind_eq_some_iff.mp hplace
        obtain rfl := Option.some.inj (hu.symm.trans hfind)
        obtain ⟨left, htaken, hplace⟩ := Option.bind_eq_some_iff.mp hplace
        refine ⟨left, ?_, hplace⟩
        rw [if_pos hends]
        exact BoardUnit.standing_of_placeTaken hm htaken
      · next hends =>
        refine ⟨place, ?_, hplace⟩
        rw [if_neg hends]
        exact hm
    obtain ⟨m', hm', hfollows⟩ := hcarries left m hleft
    obtain ⟨m'', hm'', hfollows'⟩ := ih hw hv hm' hrest
    exact ⟨m'', hm'', hfollows.trans hfollows'⟩

/-- The modifier that an attack uses is not the one that an attack of the same unit used before,
wherever that is by then. -/
theorem Run.uses_another {player₁ player₂ : UInt8} {attacker target₁ target₂ : Uid}
    {resolution resolution' : Resolution} {declared₁ declared₂ : Battle}
    {att₁ tgt₁ att₂ tgt₂ : BoardUnit} {place₁ place₂ : Nat}
    (hfirst : rules.resolve b (.attack player₁ attacker target₁) = .ok resolution)
    (h : rules.Run resolution.battle steps b')
    (hsecond : rules.resolve b' (.attack player₂ attacker target₂) = .ok resolution')
    (hconnects₁ : rules.Connects player₁ attacker target₁ b declared₁ att₁ tgt₁)
    (hconnects₂ : rules.Connects player₂ attacker target₂ b' declared₂ att₂ tgt₂)
    (hplace₁ : att₁.pendingModifier? = some place₁)
    (hplace₂ : att₂.pendingModifier? = some place₂) :
  followModifier? attacker steps place₁ ≠ some place₂
  := by
  intro hfollowed
  obtain ⟨hb, ⟨u, _, hu, -⟩, hattack⟩ := resolve_attack hfirst
  obtain ⟨hb', ⟨v, _, hv, -⟩, -⟩ := resolve_attack hsecond
  obtain ⟨w, hw⟩ := h.exists_find? hfirst hu hv
  -- The first attack leaves the modifier that it uses in its place, consumed.
  obtain ⟨used, -, -, hspent⟩ := BoardUnit.modifier_of_pending hplace₁
  obtain ⟨struck, lines, later, -, -, hmodifiers⟩ := hconnects₁.spends hb.toCoherent hattack
  have hleft := hmodifiers attacker u w hu hw
  rw [if_pos rfl] at hleft
  obtain ⟨m₁, hm₁, -, hconsumed₁⟩ := hleft.2.carries place₁ _ hspent
  -- So it is up to the declaration of the second, where the modifier that is used is not.
  obtain ⟨m₂, hm₂, -, hconsumed₂⟩ := h.follows hw hv hm₁ hfollowed
  have hdeclared := hconnects₂.stocks hb'.toCoherent hv
  obtain ⟨m₃, hm₃, -, hconsumed₃⟩ := hdeclared.modifiers.carries place₂ m₂ hm₂
  obtain ⟨free, hfree, hunused, -⟩ := BoardUnit.modifier_of_pending hplace₂
  obtain rfl := Option.some.inj (hm₃.symm.trans hfree)
  exact hunused (hconsumed₃ (hconsumed₂ (hconsumed₁ rfl)))

end Ruleset

/-- An attack that is not annulled consumes the first modifier of the attacker that no attack
has consumed before, as its declaration leaves these; the line about it tells of the damage with
this modifier, and it does nothing to the other modifiers of any unit.  An attack that is
annulled does nothing to any, nor does another action; but the end of a turn takes along only
some that no attack has consumed.  To the modifiers of a unit others come only behind these,
which no attack has consumed.  In a run no attack uses a modifier that another has used. -/
theorem modifiers_used_once (rules : Ruleset) :
  (∀ b player attacker target resolution,
    rules.resolve b (.attack player attacker target) = .ok resolution →
    (∀ declared att tgt, rules.Connects player attacker target b declared att tgt →
      ∃ used spent struck lines later, Spends att.modifiers used spent
        ∧ Ruleset.strike declared att tgt = .ok (struck, damage att.impact tgt.defence used)
        ∧ resolution.log = lines ++ Ruleset.strikeLine struck player attacker target
            (damage att.impact tgt.defence used) :: later
        ∧ ∀ uid u v, b.find? uid = some u → resolution.battle.find? uid = some v →
          if uid = attacker then Adds u.modifiers att.modifiers ∧ Adds spent v.modifiers
          else Adds u.modifiers v.modifiers)
    ∧ ((¬∃ declared att tgt, rules.Connects player attacker target b declared att tgt) →
      ∀ uid u v, b.find? uid = some u → resolution.battle.find? uid = some v →
        Adds u.modifiers v.modifiers))
  ∧ (∀ b action resolution, rules.resolve b action = .ok resolution →
    (¬action.isAttack →
      ∀ uid u v, b.find? uid = some u → resolution.battle.find? uid = some v →
        Adds (if action.endsTurn then u.standing else u.modifiers) v.modifiers)
    ∧ ∀ uid v, b.find? uid = none → resolution.battle.find? uid = some v →
      ∀ m ∈ v.modifiers, ¬m.consumed)
  ∧ (∀ b steps b', rules.Run b steps b' →
    ∀ uid u v, b.find? uid = some u → b'.find? uid = some v →
      ∀ place m place', u.modifiers[place]? = some m →
        followModifier? uid steps place = some place' →
        ∃ m', v.modifiers[place']? = some m' ∧ m.Follows m')
  ∧ ∀ b b' before between after m₁ m₂ player₁ player₂ attacker target₁ target₂,
    rules.Run b (before ++ (m₁, .attack player₁ attacker target₁)
      :: (between ++ (m₂, .attack player₂ attacker target₂) :: after)) b' →
    ∀ declared₁ att₁ tgt₁ declared₂ att₂ tgt₂ place₁ place₂,
      rules.Connects player₁ attacker target₁ m₁ declared₁ att₁ tgt₁ →
      rules.Connects player₂ attacker target₂ m₂ declared₂ att₂ tgt₂ →
      att₁.pendingModifier? = some place₁ → att₂.pendingModifier? = some place₂ →
      followModifier? attacker between place₁ ≠ some place₂
  := by
  refine ⟨?_, ?_, ?_, ?_⟩
  · intro b player attacker target resolution h
    obtain ⟨hb, -, hattack⟩ := Ruleset.resolve_attack h
    constructor
    · intro declared att tgt hconnects
      obtain ⟨struck, lines, later, hstrike, hlog, hmodifiers⟩ :=
        hconnects.spends hb.toCoherent hattack
      rw [(Ruleset.resolve_narrates h).1] at hlog
      exact ⟨_, _, struck, lines, later, att.spends, hstrike, List.append_cancel_left hlog,
        hmodifiers⟩
    · intro hannulled uid u v hu hv
      have hstocks := Ruleset.attackUnit_annulled hb.toCoherent hattack hannulled
      exact (hstocks.stocks hb.toCoherent hu hv).modifiers
  · intro b action resolution h
    constructor
    · intro haction uid u v hu hv
      exact Ruleset.resolve_supplies haction h hu hv
    · intro uid v hnew hv
      exact Ruleset.resolve_supplies_new h hnew hv
  · intro b steps b' h uid u v hu hv place m place' hm hplace
    exact h.follows hu hv hm hplace
  · intro b b' before between after m₁ m₂ player₁ player₂ attacker target₁ target₂ h
      declared₁ att₁ tgt₁ declared₂ att₂ tgt₂ place₁ place₂ hconnects₁ hconnects₂ hplace₁ hplace₂
    obtain ⟨_, -, hrun⟩ := h.split
    cases hrun with
    | cons hfirst hrest =>
      obtain ⟨_, hbetween, hrest⟩ := hrest.split
      cases hrest with
      | cons hsecond _ =>
        exact hbetween.uses_another hfirst hsecond hconnects₁ hconnects₂ hplace₁ hplace₂

/-- A card whose unit strengthens itself whenever it is about to attack. -/
def Card.marksman : Card :=
  { id := "marksman"
    name := "Marksman"
    stats.vitality := 3
    abilities := [{
      kind := .passive
      rules := [{
        trigger := .onAttackDeclare
        condition := some .selfIsSource
        script := [.boostAttack .self { impactBonus := 2 }] }] }] }

/-- A battle in which a marksman that has used one of its two modifiers faces a tough unit. -/
def Battle.shooting : Battle :=
  { Battle.duel with
    side0.board := ⟨[some {
      uid := ⟨1⟩, cardId := "marksman", owner := 0, cell := ⟨.front, 0⟩, vitality := 3,
      vitalityMax := 3, impact := 2, defence := 0, velocity := 1,
      modifiers := [{ consumed := true }, { impactBonus := 1 }] },
      none, none, none, none, none], rfl⟩
    side1.board := ⟨[some {
      uid := ⟨2⟩, cardId := "scout", owner := 1, cell := ⟨.front, 0⟩, vitality := 9,
      vitalityMax := 9, impact := 1, defence := 0, velocity := 2 },
      none, none, none, none, none], rfl⟩ }

namespace Ruleset

variable {rules : Ruleset} {b : Battle}

/-- An action whose resolution passes a test is accepted with a resolution that does. -/
theorem exists_resolution {action : Action} {p : Resolution → Bool}
    (h : (rules.resolve b action).toOption.any p) :
  ∃ resolution, rules.resolve b action = .ok resolution ∧ p resolution
  := by
  cases hresolve : rules.resolve b action with
  | error stop =>
    rw [hresolve] at h
    cases h
  | ok resolution =>
    rw [hresolve] at h
    exact ⟨resolution, rfl, h⟩

/-- Both units are found after the declaration, and the place of the attacker's modifiers that is
pending is known. -/
theorem exists_connects {player : UInt8} {attacker target : Uid} {place : Nat}
    (h : (rules.emit (.ofAttack .onAttackDeclare player attacker target)
      { b with firstAttacker := b.firstAttacker <|> some attacker }).toOption.any fun result =>
        (result.1.find? attacker).any fun att =>
          (result.1.find? target).isSome && att.pendingModifier? == some place) :
  ∃ declared att tgt, rules.Connects player attacker target b declared att tgt
    ∧ att.pendingModifier? = some place
  := by
  obtain ⟨declared, hdeclares, h⟩ := exists_leads (p := fun declared : Battle =>
    (declared.find? attacker).any fun att =>
      (declared.find? target).isSome && att.pendingModifier? == some place) h
  obtain ⟨att, hatt, h⟩ := (Option.any_eq_true _ _).mp h
  obtain ⟨htgt, hpending⟩ := (Bool.and_eq_true _ _).mp h
  obtain ⟨tgt, htgt⟩ := Option.isSome_iff_exists.mp htgt
  exact ⟨declared, att, tgt, ⟨hdeclares, hatt, htgt⟩, eq_of_beq hpending⟩

end Ruleset

/-- The marksman attacks in two turns of its player.  In the first attack the modifier at its
second place is pending; that at its third place is at its first in the second attack, and
pending then. -/
theorem run_shooting :
  let rules : Ruleset := { catalog := ⟨[.marksman, .headsman], by decide⟩ }
  let attack : Action := .attack 0 ⟨1⟩ ⟨2⟩
  let aims (b : Battle) (place : Nat) : Prop :=
    ∃ declared att tgt, rules.Connects 0 ⟨1⟩ ⟨2⟩ b declared att tgt
      ∧ att.pendingModifier? = some place
  aims .shooting 1 ∧ ∃ first second third fourth, rules.resolve .shooting attack = .ok first
    ∧ rules.resolve first.battle (.endTurn 0) = .ok second
    ∧ rules.resolve second.battle (.endTurn 1) = .ok third
    ∧ rules.resolve third.battle attack = .ok fourth ∧ aims third.battle 0
    ∧ followModifier? ⟨1⟩ [(first.battle, .endTurn 0), (second.battle, .endTurn 1)] 2 = some 0
    ∧ ∃ u v w m, first.battle.find? ⟨1⟩ = some u ∧ second.battle.find? ⟨1⟩ = some v
      ∧ third.battle.find? ⟨1⟩ = some w ∧ u.modifiers[2]? = some m
  := by
  intro rules attack aims
  constructor
  · apply Ruleset.exists_connects
    decide +kernel
  · have hrun : (rules.resolve .shooting attack).toOption.any fun first =>
        (rules.resolve first.battle (.endTurn 0)).toOption.any fun second =>
          (rules.resolve second.battle (.endTurn 1)).toOption.any fun third =>
            (rules.resolve third.battle attack).toOption.any fun _ =>
              ((rules.emit (.ofAttack .onAttackDeclare 0 ⟨1⟩ ⟨2⟩)
                { third.battle with
                  firstAttacker := third.battle.firstAttacker <|> some ⟨1⟩ }).toOption.any
                fun result => (result.1.find? ⟨1⟩).any fun att =>
                  (result.1.find? ⟨2⟩).isSome && att.pendingModifier? == some 0)
              && (followModifier? ⟨1⟩
                [(first.battle, .endTurn 0), (second.battle, .endTurn 1)] 2 == some 0
              && (first.battle.find? ⟨1⟩).any fun u => (second.battle.find? ⟨1⟩).any fun _ =>
                (third.battle.find? ⟨1⟩).any fun _ => u.modifiers[2]?.any fun _ => true) := by
      decide +kernel
    obtain ⟨first, hfirst, hrun⟩ := Ruleset.exists_resolution hrun
    obtain ⟨second, hsecond, hrun⟩ := Ruleset.exists_resolution hrun
    obtain ⟨third, hthird, hrun⟩ := Ruleset.exists_resolution hrun
    obtain ⟨fourth, hfourth, hrun⟩ := Ruleset.exists_resolution hrun
    obtain ⟨haims, hrun⟩ := (Bool.and_eq_true _ _).mp hrun
    obtain ⟨hfollowed, hrun⟩ := (Bool.and_eq_true _ _).mp hrun
    obtain ⟨u, hu, hrun⟩ := (Option.any_eq_true _ _).mp hrun
    obtain ⟨v, hv, hrun⟩ := (Option.any_eq_true _ _).mp hrun
    obtain ⟨w, hw, hrun⟩ := (Option.any_eq_true _ _).mp hrun
    obtain ⟨m, hm, -⟩ := (Option.any_eq_true _ _).mp hrun
    exact ⟨first, second, third, fourth, hfirst, hsecond, hthird, hfourth,
      Ruleset.exists_connects haims, eq_of_beq hfollowed, u, v, w, m, hu, hv, hw, hm⟩

/-- The attack of a headsman is annulled. -/
theorem annulled_execution :
  let rules : Ruleset := { catalog := ⟨[.marksman, .headsman], by decide⟩ }
  ¬∃ declared att tgt, rules.Connects 0 ⟨1⟩ ⟨2⟩ .execution declared att tgt
  := by
  rintro rules ⟨declared, att, tgt, hconnects⟩
  have hgone : (rules.emit (.ofAttack .onAttackDeclare 0 ⟨1⟩ ⟨2⟩)
      { Battle.execution with firstAttacker := some ⟨1⟩ }).toOption.any fun result =>
        (result.1.find? ⟨2⟩).isNone := by
    decide +kernel
  obtain ⟨m, hdeclares, hgone⟩ := exists_leads (p := fun m : Battle => (m.find? ⟨2⟩).isNone) hgone
  obtain rfl := hdeclares.unique hconnects.declares
  rw [hconnects.target] at hgone
  cases hgone

/-- The marksman uses a modifier in its attack.  That is gone at the end of the turn, and so it is
not the one that is used in the next attack, which the marksman has taken along.  The headsman
uses none in its attack, and a marksman that enters the battle has used none. -/
theorem modifiers_used_once_shooting :
  let rules : Ruleset := { catalog := ⟨[.marksman, .headsman], by decide⟩ }
  let attack : Action := .attack 0 ⟨1⟩ ⟨2⟩
  let connects := rules.Connects 0 ⟨1⟩ ⟨2⟩
  (∃ first second third, rules.resolve .shooting attack = .ok first
    ∧ rules.resolve first.battle (.endTurn 0) = .ok second
    ∧ rules.resolve second.battle (.endTurn 1) = .ok third
    ∧ ∃ u v w, first.battle.find? ⟨1⟩ = some u ∧ second.battle.find? ⟨1⟩ = some v
      ∧ third.battle.find? ⟨1⟩ = some w
      ∧ (∃ declared att tgt used spent struck lines later, connects .shooting declared att tgt
        ∧ Spends att.modifiers used spent ∧ Adds spent u.modifiers
        ∧ first.log = lines ++ Ruleset.strikeLine struck 0 ⟨1⟩ ⟨2⟩
          (damage att.impact tgt.defence used) :: later)
      ∧ Adds u.standing v.modifiers
      ∧ (∃ m m', u.modifiers[2]? = some m ∧ w.modifiers[0]? = some m' ∧ m.Follows m')
      ∧ followModifier? ⟨1⟩ [(first.battle, .endTurn 0), (second.battle, .endTurn 1)] 1 ≠ some 0)
  ∧ (∃ resolution u v, rules.resolve .execution attack = .ok resolution
    ∧ Battle.execution.find? ⟨1⟩ = some u ∧ resolution.battle.find? ⟨1⟩ = some v
    ∧ Adds u.modifiers v.modifiers)
  ∧ ∃ resolution v,
    rules.resolve { Battle.shooting with side0.hand := ["marksman"] }
        (.playUnit 0 0 ⟨.front, 1⟩) = .ok resolution
      ∧ resolution.battle.find? ⟨3⟩ = some v ∧ ∀ m ∈ v.modifiers, ¬m.consumed
  := by
  intro rules attack connects
  obtain ⟨hattacks, hactions, hfollows, hruns⟩ := modifiers_used_once rules
  refine ⟨?_, ?_, ?_⟩
  · obtain ⟨⟨declared, att, tgt, hconnects, hplace⟩, first, second, third, fourth, hfirst, hsecond,
      hthird, hfourth, ⟨declared', att', tgt', hconnects', hplace'⟩, hfollowed, u, v, w, m, hu, hv,
      hw, hm⟩ := run_shooting
    refine ⟨first, second, third, hfirst, hsecond, hthird, u, v, w, hu, hv, hw, ?_, ?_, ?_, ?_⟩
    · obtain ⟨used, spent, struck, lines, later, hspends, -, hlog, hmodifiers⟩ :=
        (hattacks .shooting 0 ⟨1⟩ ⟨2⟩ first hfirst).1 declared att tgt hconnects
      have hadds := hmodifiers ⟨1⟩ _ u rfl hu
      exact ⟨declared, att, tgt, used, spent, struck, lines, later, hconnects, hspends, hadds.2,
        hlog⟩
    · exact (hactions first.battle (.endTurn 0) second hsecond).1 Bool.false_ne_true ⟨1⟩ u v hu hv
    · obtain ⟨m', hm', hfollows⟩ := hfollows first.battle _ third.battle
        (.cons hsecond (.cons hthird (.nil _))) ⟨1⟩ u w hu hw 2 m 0 hm hfollowed
      exact ⟨m, m', hm, hm', hfollows⟩
    · apply hruns .shooting fourth.battle [] [(first.battle, .endTurn 0),
        (second.battle, .endTurn 1)] [] .shooting third.battle 0 0 ⟨1⟩ ⟨2⟩ ⟨2⟩ _ _ _ _ _ _ _ 1 0
        hconnects hconnects' hplace hplace'
      exact .cons hfirst (.cons hsecond (.cons hthird (.cons hfourth (.nil _))))
  · have hannuls : (rules.resolve .execution attack).toOption.any fun resolution =>
        (resolution.battle.find? ⟨1⟩).any fun _ => true := by
      decide +kernel
    obtain ⟨resolution, hresolve, hannuls⟩ := Ruleset.exists_resolution hannuls
    obtain ⟨v, hv, -⟩ := (Option.any_eq_true _ _).mp hannuls
    refine ⟨resolution, _, v, hresolve, rfl, hv, ?_⟩
    exact (hattacks .execution 0 ⟨1⟩ ⟨2⟩ resolution hresolve).2 annulled_execution ⟨1⟩ _ v rfl hv
  · have henters : (rules.resolve { Battle.shooting with side0.hand := ["marksman"] }
        (.playUnit 0 0 ⟨.front, 1⟩)).toOption.any fun resolution =>
          (resolution.battle.find? ⟨3⟩).any fun _ => true := by
      decide +kernel
    obtain ⟨resolution, hresolve, henters⟩ := Ruleset.exists_resolution henters
    obtain ⟨v, hv, -⟩ := (Option.any_eq_true _ _).mp henters
    exact ⟨resolution, v, hresolve, hv, (hactions _ _ resolution hresolve).2 ⟨3⟩ v rfl hv⟩

end CardBattle
