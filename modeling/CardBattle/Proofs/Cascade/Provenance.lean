import CardBattle.Proofs.Cascade.Descent
import CardBattle.Proofs.Cascade.Grants

/-!
# Where auras come from

Where auras are given by continuous effects only, and by these without a condition
(`Ruleset.ConfinesAuras`), every aura that a unit has can be traced to its source.  Of all that
cascades do, only the steps of continuous effects add auras, each to the one unit that it names
if that is on a board (`runStep_gives`).  Nothing else changes the auras of a unit but its
elimination, which takes them off the boards with it (`Battle.Gives`).
-/

namespace CardBattle

open Relation (ReflTransGen)
open Change

mutual

/-- The step, and every step of its branches, gives no aura. -/
def Step.GivesNoAura : Step → Prop
  | .modifyStat _ _ _ expiry => expiry ≠ .aura
  | .branch _ thenSteps elseSteps => scriptGivesNoAura thenSteps ∧ scriptGivesNoAura elseSteps
  | _ => True

/-- No step of a script, at any nesting, gives an aura. -/
def scriptGivesNoAura : List Step → Prop
  | [] => True
  | step :: rest => step.GivesNoAura ∧ scriptGivesNoAura rest

end

/-- The rule blocks of continuous effects run in any case and do nothing but give auras, and
no other rule block gives one. -/
structure Ruleset.ConfinesAuras (rules : Ruleset) : Prop where
  continuous : rules.IsContinuous
  unconditional : rules.IsUnconditional
  others : ∀ card ∈ rules.catalog.cards, ∀ ability ∈ card.abilities, ∀ block ∈ ability.rules,
    ¬block.trigger.IsContinuous → scriptGivesNoAura block.script

/-- Every unit was there before, and its auras are those that it had and those granted to
it. -/
def Battle.Gives (grants : List Grant) (b b' : Battle) : Prop :=
  ∀ v ∈ b'.units, ∃ u ∈ b.units,
    u.Persists v ∧ v.expiring .aura = u.expiring .aura ++ grantedTo v.uid grants

variable {rules : Ruleset} {emit : Event → Change} {actor : BoardUnit} {event : Event}
  {b m b' : Battle} {grants grants' : List Grant}

mutual

/-- A step that gives no aura changes statistics only for other durations. -/
theorem Step.GivesNoAura.changesOnly {step : Step} (h : step.GivesNoAura) :
  step.ChangesOnly fun _ duration => duration ≠ .aura
  := by
  cases step with
  | modifyStat _ _ _ expiry => exact h
  | branch _ thenSteps elseSteps => exact ⟨h.1.changesOnly, h.2.changesOnly⟩
  | _ => trivial

/-- A script that gives no aura changes statistics only for other durations. -/
theorem scriptGivesNoAura.changesOnly {script : List Step} (h : scriptGivesNoAura script) :
  scriptChangesOnly (fun _ duration => duration ≠ .aura) script
  := by
  cases script with
  | nil => trivial
  | cons step rest => exact ⟨h.1.changesOnly, h.2.changesOnly⟩

end

/-! ### Units that keep their auras -/

namespace BoardUnit

variable {u v w : BoardUnit}

/-- The unit keeps its uid, card and owner, and the auras that it has. -/
structure KeepsAuras (u v : BoardUnit) : Prop extends Persists u v where
  auras : v.expiring .aura = u.expiring .aura

theorem KeepsAuras.refl (u : BoardUnit) :
  u.KeepsAuras u
  := ⟨.refl u, rfl⟩

theorem KeepsAuras.trans (huv : u.KeepsAuras v) (hvw : v.KeepsAuras w) :
  u.KeepsAuras w
  := ⟨huv.toPersists.trans hvw.toPersists, hvw.auras.trans huv.auras⟩

theorem Restats.keepsAuras (h : u.Restats v) (hbuffs : v.buffs = u.buffs) :
  u.KeepsAuras v
  := ⟨h.persists, by rw [expiring, expiring, hbuffs]⟩

/-- No alteration but a change of a statistic gives an aura. -/
theorem Alters.keepsAuras (h : u.Alters (fun _ => False) v) :
  u.KeepsAuras v
  := ⟨h.endures.toPersists, by rw [expiring, expiring, h.buffs_eq]⟩

/-- Of the buffs of a unit that takes one more, the auras are those it had and the new one if
that is one. -/
theorem addBuff_expiring {stat : Stat} {delta : Int32} {expiry : Duration}
    (h : u.addBuff stat delta expiry = .ok v) :
  v.expiring .aura
    = u.expiring .aura ++ if expiry = .aura then [⟨stat, delta, expiry⟩] else []
  := by
  obtain ⟨w, hw, rfl⟩ := addBuff_ok h
  rw [expiring, expiring, modifyStat_buffs hw]
  cases expiry with
  | permanent => simp
  | endOfCycle => simp
  | aura => simp

/-- Nothing that happens to a unit in a cascade concerns its auras, if no step gives one. -/
theorem KeepsAuras.isBond :
  IsBond (fun _ duration => duration ≠ .aura) KeepsAuras
  := by
  constructor
  case refl => exact KeepsAuras.refl
  case trans => exact fun _ _ _ => KeepsAuras.trans
  case elsewhere => exact fun _ _ => ⟨⟨rfl, rfl, rfl⟩, rfl⟩
  case alters => exact fun _ _ => Alters.keepsAuras
  case buff =>
    intro u v stat delta duration hduration h
    use (addBuff_restats h).persists
    rw [addBuff_expiring h, if_neg hduration, List.append_nil]

end BoardUnit

/-! ### Changes that give no aura -/

namespace Battle

/-- No unit comes to the boards where auras are given. -/
theorem Gives.has {grants : List Grant} (h : b.Gives grants b') {uid : Uid} (huid : b'.has uid) :
  b.has uid
  := by
  obtain ⟨v, hv⟩ := Option.isSome_iff_exists.mp huid
  obtain ⟨u, hu, hpersists, -⟩ := h v (mem_of_find? hv)
  rw [← find?_uid hv, hpersists.uid]
  exact has_of_mem hu

/-- Where nothing is given, every unit keeps the auras that it had. -/
theorem gives_nil_iff :
  b.Gives [] b' ↔ b.Descends BoardUnit.KeepsAuras b'
  := by
  rw [Gives, Descends]
  simp only [grantedTo_nil, List.append_nil]
  constructor
  · intro h v hv
    obtain ⟨u, hu, hpersists, hauras⟩ := h v hv
    exact ⟨u, hu, hpersists, hauras⟩
  · intro h v hv
    obtain ⟨u, hu, hkeeps⟩ := h v hv
    exact ⟨u, hu, hkeeps.toPersists, hkeeps.auras⟩

theorem Gives.refl (b : Battle) :
  b.Gives [] b
  := gives_nil_iff.mpr (.refl .refl b)

/-- What is given by one change after another. -/
theorem Gives.trans (h : b.Gives grants m) (h' : m.Gives grants' b') :
  b.Gives (grants ++ grants') b'
  := by
  intro w hw
  obtain ⟨v, hv, hvw, hauras'⟩ := h' w hw
  obtain ⟨u, hu, huv, hauras⟩ := h v hv
  use u, hu, huv.trans hvw
  rw [hauras', hauras, grantedTo_append, hvw.uid, List.append_assoc]

/-- Where nothing is added, what was given before or is given after is all. -/
theorem Gives.then_nothing (h : b.Gives grants m) (h' : m.Gives [] b') :
  b.Gives grants b'
  := by
  have hgives := h.trans h'
  rwa [List.append_nil] at hgives

/-- A unit is replaced by one that has the auras that it had and those granted to its uid. -/
theorem Coherent.replace_gives (hb : b.Coherent) {u v : BoardUnit}
    (hu : b.find? u.uid = some u) (hpersists : u.Persists v)
    (hauras : v.expiring .aura = u.expiring .aura ++ grantedTo u.uid grants)
    (hother : ∀ uid, uid ≠ u.uid → grantedTo uid grants = []) :
  b.Gives grants (b.replace v)
  := by
  intro w hw
  rcases hb.mem_replace hu hpersists.uid hw with rfl | ⟨hmem, hne⟩
  · exact ⟨u, mem_of_find? hu, hpersists, by rw [hauras, hpersists.uid]⟩
  · rw [hpersists.uid] at hne
    exact ⟨w, hmem, .refl w, by rw [hother _ hne, List.append_nil]⟩

theorem Logs.gives_nil (h : b.Logs b') :
  b.Gives [] b'
  := gives_nil_iff.mpr (descends_of_units .refl h.units_eq)

end Battle

/-! ### Cascades that give no aura -/

/-- The triggers of an elimination are none of continuous effects. -/
theorem Trigger.not_isContinuous {trigger : Trigger} (h : trigger ∈ eliminations) :
  ¬trigger.IsContinuous
  := by
  revert trigger
  decide

section

variable (hmoves : ∀ event b b', (emit event).Leads b b' → Moves b b')
  (hnothing : ∀ event b b', ¬event.trigger.IsContinuous → b.Coherent →
    (emit event).Leads b b' → b.Gives [] b')

include hmoves hnothing

theorem sweepUpTo_gives_nil {source : Option Uid} {depth : UInt32} {n : Nat} {b b' : Battle}
    (hb : b.Coherent) (h : (sweepUpTo emit source depth n).Leads b b') :
  b.Gives [] b'
  := by
  apply Battle.gives_nil_iff.mpr
  apply sweepUpTo_descends BoardUnit.KeepsAuras.isBond.isTie hmoves _ hb h
  intro event c c' helimination hc hleads
  apply Battle.gives_nil_iff.mp
  apply hnothing event c c' (Trigger.not_isContinuous helimination) hc hleads

theorem sweepAfter_gives_nil (hb : b.Coherent) (h : (sweepAfter emit actor event).Leads b b') :
  b.Gives [] b'
  := by
  obtain ⟨r, h⟩ := h
  obtain ⟨depth, -, h⟩ := bind_eq_ok.mp h
  apply sweepUpTo_gives_nil hmoves hnothing hb ⟨r, h⟩

/-- A step that changes a statistic gives an aura to its unit if it lasts as long as auras. -/
theorem stepModifyStat_gives (hb : b.Coherent) {u : BoardUnit} (hu : b.find? u.uid = some u)
    {stat : Stat} {delta : Int32} {duration : Duration}
    (h : (stepModifyStat rules emit actor event stat delta duration u).Leads b b') :
  b.Gives (if duration = .aura then [⟨u.uid, ⟨stat, delta, duration⟩⟩] else []) b'
  := by
  obtain ⟨v, m, hv, hm, h⟩ := stepModifyStat_leads.mp h
  have hlogs := logs_of_noted hm
  have hendures := (BoardUnit.addBuff_restats hv).endures (BoardUnit.addBuff_bounded hv)
  have hgives : b.Gives (if duration = .aura then [⟨u.uid, ⟨stat, delta, duration⟩⟩] else []) m
      := by
    apply Battle.Gives.then_nothing _ hlogs.gives_nil
    apply hb.replace_gives hu hendures.toPersists
    · rw [BoardUnit.addBuff_expiring hv]
      split
      · rw [grantedTo_cons, if_pos rfl, grantedTo_nil]
      · rw [grantedTo_nil]
    · intro uid hne
      split
      · rw [grantedTo_cons, if_neg (Ne.symm hne), grantedTo_nil]
      · rw [grantedTo_nil]
  split at h
  · apply hgives.then_nothing
    apply sweepAfter_gives_nil hmoves hnothing _ h
    exact (hb.replace hu hendures).logs hlogs
  · subst h
    exact hgives

end

namespace Ruleset

variable (hrules : rules.ConfinesAuras)

include hrules

/-- A rule block for another trigger than those of continuous effects gives no aura. -/
theorem ConfinesAuras.blocksOf_other {cardId : String} {trigger : Trigger}
    (htrigger : ¬trigger.IsContinuous) {block : RuleBlock}
    (hblock : block ∈ rules.blocksOf cardId trigger) :
  scriptGivesNoAura block.script
  := by
  obtain ⟨card, hfound, ability, hability, hmem, rfl⟩ := mem_blocksOf hblock
  apply hrules.others card (List.mem_of_find?_eq_some hfound) ability hability block hmem htrigger

/-- A rule block for a trigger of continuous effects runs in any case. -/
theorem ConfinesAuras.applies {cardId : String} {trigger : Trigger}
    (htrigger : trigger.IsContinuous) {block : RuleBlock}
    (hblock : block ∈ rules.blocksOf cardId trigger) (b : Battle) (u : BoardUnit)
    (event : Event) :
  block.applies rules b u event
  := by
  obtain ⟨card, hfound, ability, hability, hmem, rfl⟩ := mem_blocksOf hblock
  have hnone := hrules.unconditional card (List.mem_of_find?_eq_some hfound) ability hability block
    hmem htrigger
  rw [RuleBlock.applies, hnone]
  rfl

/-- What comes of an event gives no aura, unless the event is one of continuous effects. -/
theorem emitWithin_gives_nil (n : Nat) (event : Event) (b b' : Battle)
    (htrigger : ¬event.trigger.IsContinuous) (hb : b.Coherent)
    (h : (rules.emitWithin n event).Leads b b') :
  b.Gives [] b'
  := by
  apply Battle.gives_nil_iff.mpr
  apply emitWithin_descends BoardUnit.KeepsAuras.isBond.isTie
    (q := fun trigger => ¬trigger.IsContinuous) (fun _ => Trigger.not_isContinuous) _ n event b b'
    htrigger hb h
  intro trigger hother cardId block hblock
  exact scriptChangesOnly_all _ (hrules.blocksOf_other hother hblock).changesOnly

theorem emit_gives_nil (event : Event) (b b' : Battle) (htrigger : ¬event.trigger.IsContinuous)
    (hb : b.Coherent) (h : (rules.emit event).Leads b b') :
  b.Gives [] b'
  := emitWithin_gives_nil hrules _ event b b' htrigger hb h

end Ruleset

/-! ### Steps of continuous effects -/

/-- What a step grants in a script that `actor` runs on an event, if the unit that it names is
on a board. -/
def Step.offers (actor : BoardUnit) (event : Event) : Step → List Grant
  | .modifyStat ref stat delta .aura =>
      ((ref.uid? actor event).map fun uid => ⟨uid, ⟨stat, delta, .aura⟩⟩).toList
  | _ => []

/-- To a unit on a board a step grants what it offers it. -/
theorem Step.grantedTo_offers {uid : Uid} (huid : b.has uid) (step : Step) :
  grantedTo uid (step.offers actor event) = grantedTo uid (step.grants b actor event)
  := by
  cases step with
  | modifyStat ref stat delta duration =>
    cases duration with
    | aura =>
      rw [Step.offers, Step.grants, UnitRef.resolve?.eq_def]
      cases ref.uid? actor event with
      | none => rfl
      | some named =>
        rw [Option.bind_some, Option.map_some, Option.toList_some, grantedTo_cons]
        cases hu : b.find? named with
        | none =>
          have hne : named ≠ uid := by
            rintro rfl
            rw [Battle.has, hu] at huid
            cases huid
          simp [hne]
        | some u =>
          obtain rfl := Battle.find?_uid hu
          rw [Option.map_some, Option.toList_some, grantedTo_cons]
    | _ => rfl
  | _ => rfl

section

variable (hmoves : ∀ event b b', (emit event).Leads b b' → Moves b b')
  (hnothing : ∀ event b b', ¬event.trigger.IsContinuous → b.Coherent →
    (emit event).Leads b b' → b.Gives [] b')

include hmoves hnothing

/-- A step of an aura gives what it offers. -/
theorem runStep_gives (hb : b.Coherent) {step : Step} (hstep : step.IsAura)
    (h : (runStep rules emit actor event step).Leads b b') :
  b.Gives (step.offers actor event) b'
  := by
  unfold Step.IsAura at hstep
  split at hstep
  · next ref stat delta =>
    rw [runStep] at h
    obtain ⟨hnone, rfl⟩ | ⟨u, hu, h⟩ := onUnit_leads.mp h
    · intro v hv
      refine ⟨v, hv, .refl v, ?_⟩
      rw [Step.grantedTo_offers (Battle.has_of_mem hv), Step.grants, hnone]
      simp
    · have hgives := stepModifyStat_gives hmoves hnothing hb (find?_of_resolve? hu) h
      obtain ⟨uid, huid, hfind⟩ := Option.bind_eq_some_iff.mp hu
      rw [Step.offers, huid, ← Battle.find?_uid hfind]
      exact hgives
  · cases hstep

/-- A script of auras gives what its steps offer. -/
theorem runScript_gives (hb : b.Coherent) {script : List Step}
    (hscript : ∀ step ∈ script, step.IsAura)
    (h : (runScript rules emit actor event script).Leads b b') :
  b.Gives (script.flatMap (Step.offers actor event)) b'
  := by
  rw [runScript_eq_forEach] at h
  apply forEach_accounts (P := Battle.Coherent) .refl _ _ _ hb h
  · intro x y c m c' hx hy
    apply hx.trans hy
  · intro step _ c c' hc hleads
    apply hc.moves (runStep_moves hmoves hleads)
  · intro step hmem c c' hc hleads
    apply runStep_gives hmoves hnothing hc (hscript step hmem) hleads

end

end CardBattle
