import CardBattle.Proofs.BoardUnit.Auras
import CardBattle.Proofs.Cascade.Likeness
import CardBattle.Proofs.Cascade.Soundness

/-!
# What continuous effects grant

The scripts of continuous effects consist of auras: changes of statistics that last until
the auras are worked out anew (`Ruleset.IsContinuous`).  What they grant to which unit can be
told from the battle in which their trigger is broadcast (`Ruleset.grants`), since statistics
and buffs do not matter for it.  As long as no unit is eliminated, the broadcast does nothing
but hand these grants out, one after another, and find all units alive after every loss of
vitality (`emit_calmly`).
-/

namespace CardBattle

open Relation (ReflTransGen)
open Change

/-! ### Grants -/

/-- A buff that is granted to the unit of a uid. -/
structure Grant where
  uid : Uid
  buff : Buff
deriving DecidableEq

/-- The buffs that are granted to a uid, in order. -/
def grantedTo (uid : Uid) (grants : List Grant) : List Buff :=
  (grants.filter fun grant => grant.uid = uid).map Grant.buff

@[simp]
theorem grantedTo_nil (uid : Uid) :
  grantedTo uid [] = []
  := rfl

@[simp]
theorem grantedTo_append (uid : Uid) (grants grants' : List Grant) :
  grantedTo uid (grants ++ grants') = grantedTo uid grants ++ grantedTo uid grants'
  := by simp [grantedTo]

theorem grantedTo_cons (uid : Uid) (grant : Grant) (grants : List Grant) :
  grantedTo uid (grant :: grants)
    = if grant.uid = uid then grant.buff :: grantedTo uid grants else grantedTo uid grants
  := by
  rw [grantedTo, List.filter_cons]
  by_cases h : grant.uid = uid
  · simp [h, grantedTo]
  · simp [h, grantedTo]

theorem mem_of_mem_grantedTo {uid : Uid} {grants : List Grant} {buff : Buff}
    (h : buff ∈ grantedTo uid grants) :
  ⟨uid, buff⟩ ∈ grants
  := by
  obtain ⟨grant, hgrant, rfl⟩ := List.mem_map.mp h
  obtain ⟨hmem, huid⟩ := List.mem_filter.mp hgrant
  rwa [← of_decide_eq_true huid]

/-- The step changes a statistic for as long as auras last. -/
def Step.IsAura : Step → Prop
  | .modifyStat _ _ _ .aura => True
  | _ => False

instance : DecidablePred Step.IsAura
  | .modifyStat _ _ _ .aura => .isTrue trivial
  | .modifyStat _ _ _ .permanent => .isFalse id
  | .modifyStat _ _ _ .endOfCycle => .isFalse id
  | .damage .. | .heal .. | .healAllies .. | .applyStatus .. | .removeStatus ..
  | .removeNegativeStatus .. | .preventActive .. | .grantImmunity .. | .setFlag ..
  | .boostAttack .. | .draw .. | .discard .. | .peekHand .. | .swapPositions ..
  | .grantReach .. | .grantUntargetable .. | .branch .. | .revealHandCard ..
  | .returnHandCard .. | .unknown => .isFalse id

/-- The trigger is one of continuous effects. -/
def Trigger.IsContinuous (trigger : Trigger) : Prop :=
  trigger = .ruleMod ∨ trigger = .aura

instance : DecidablePred Trigger.IsContinuous :=
  fun trigger => inferInstanceAs (Decidable (trigger = .ruleMod ∨ trigger = .aura))

/-- Both triggers of a refresh are of continuous effects. -/
theorem Trigger.isContinuous_of_mem {first second trigger : Trigger} (hfirst : first.IsContinuous)
    (hsecond : second.IsContinuous) (h : trigger ∈ [first, second]) :
  trigger.IsContinuous
  := by
  rcases List.mem_pair.mp h with rfl | rfl
  · exact hfirst
  · exact hsecond

/-- The scripts of continuous effects consist of auras. -/
def Ruleset.IsContinuous (rules : Ruleset) : Prop :=
  ∀ card ∈ rules.catalog.cards, ∀ ability ∈ card.abilities, ∀ block ∈ ability.rules,
    block.trigger.IsContinuous → ∀ step ∈ block.script, step.IsAura

instance : DecidablePred Ruleset.IsContinuous :=
  fun rules => inferInstanceAs (Decidable (∀ card ∈ rules.catalog.cards,
    ∀ ability ∈ card.abilities, ∀ block ∈ ability.rules,
    block.trigger.IsContinuous → ∀ step ∈ block.script, step.IsAura))

/-- The rule blocks of continuous effects run in any case. -/
def Ruleset.IsUnconditional (rules : Ruleset) : Prop :=
  ∀ card ∈ rules.catalog.cards, ∀ ability ∈ card.abilities, ∀ block ∈ ability.rules,
    block.trigger.IsContinuous → block.condition = none

instance : DecidablePred Ruleset.IsUnconditional :=
  fun rules => inferInstanceAs (Decidable (∀ card ∈ rules.catalog.cards,
    ∀ ability ∈ card.abilities, ∀ block ∈ ability.rules,
    block.trigger.IsContinuous → block.condition = none))

/-- What a step grants in a script that `actor` runs on an event. -/
def Step.grants (b : Battle) (actor : BoardUnit) (event : Event) : Step → List Grant
  | .modifyStat ref stat delta .aura =>
      ((ref.resolve? b actor event).map fun u => ⟨u.uid, ⟨stat, delta, .aura⟩⟩).toList
  | _ => []

/-- What a rule block of a unit grants on an event. -/
def RuleBlock.grants (rules : Ruleset) (b : Battle) (u : BoardUnit) (event : Event)
    (block : RuleBlock) : List Grant :=
  if block.applies rules b u event then block.script.flatMap (Step.grants b u event) else []

/-- What a unit grants on an event. -/
def Ruleset.grantsOf (rules : Ruleset) (b : Battle) (event : Event) (u : BoardUnit) :
    List Grant :=
  (rules.blocksOf u.cardId event.trigger).flatMap (RuleBlock.grants rules b u event)

/-- What the units on the boards grant on an event, in scan order. -/
def Ruleset.grants (rules : Ruleset) (b : Battle) (event : Event) : List Grant :=
  b.units.flatMap (rules.grantsOf b event)

variable {rules : Ruleset} {emit : Event → Change} {actor : BoardUnit} {event : Event}
  {b m b' : Battle} {grants grants' : List Grant}

/-- A script of a continuous effect in the catalog consists of auras. -/
theorem Ruleset.IsContinuous.blocksOf (h : rules.IsContinuous) {cardId : String}
    {trigger : Trigger} (htrigger : trigger.IsContinuous) {block : RuleBlock}
    (hblock : block ∈ rules.blocksOf cardId trigger) :
  ∀ step ∈ block.script, step.IsAura
  := by
  obtain ⟨card, hfound, ability, hability, hmem, rfl⟩ := Ruleset.mem_blocksOf hblock
  apply h card (List.mem_of_find?_eq_some hfound) ability hability block hmem htrigger

/-- All that a step grants is an aura. -/
theorem Step.grants_aura {step : Step} {grant : Grant} (h : grant ∈ step.grants b actor event) :
  grant.buff.expiry = .aura
  := by
  unfold Step.grants at h
  split at h
  · obtain ⟨u, -, rfl⟩ := Option.map_eq_some_iff.mp (Option.mem_toList.mp h)
    rfl
  · cases h

/-- All that units grant are auras. -/
theorem Ruleset.grants_aura {grant : Grant} (h : grant ∈ rules.grants b event) :
  grant.buff.expiry = .aura
  := by
  obtain ⟨u, -, h⟩ := List.mem_flatMap.mp h
  obtain ⟨block, -, h⟩ := List.mem_flatMap.mp h
  rw [RuleBlock.grants] at h
  split at h
  · obtain ⟨step, -, h⟩ := List.mem_flatMap.mp h
    exact step.grants_aura h
  · cases h

/-! ### Handing grants out -/

/-- The units of grants take the buffs one after another, and after each loss of vitality all
units are alive. -/
inductive HandsOut : List Grant → Battle → Battle → Prop
  | nil (b : Battle) : HandsOut [] b b
  | cons {grant : Grant} {grants : List Grant} {b b' : Battle} {u v : BoardUnit}
      (hu : b.find? grant.uid = some u)
      (h : u.addBuff grant.buff.stat grant.buff.delta grant.buff.expiry = .ok v)
      (halive : grant.buff.IsLoss → ∀ w ∈ (b.replace v).units, w.isAlive)
      (hrest : HandsOut grants (b.replace v) b') : HandsOut (grant :: grants) b b'

namespace HandsOut

theorem append_iff :
  HandsOut (grants ++ grants') b b' ↔ ∃ m, HandsOut grants b m ∧ HandsOut grants' m b'
  := by
  constructor
  · intro h
    induction grants generalizing b with
    | nil => exact ⟨b, .nil b, h⟩
    | cons grant rest ih =>
      cases h with
      | cons hu h halive hrest =>
        obtain ⟨m, hm, hlast⟩ := ih hrest
        exact ⟨m, .cons hu h halive hm, hlast⟩
  · rintro ⟨m, h, h'⟩
    induction h with
    | nil => exact h'
    | cons hu h halive _ ih => exact .cons hu h halive (ih h')

/-- A unit that takes a buff is replaced in its place, and the battle stays coherent. -/
theorem replaced (hb : b.Coherent) {uid : Uid} {u v : BoardUnit} {stat : Stat} {delta : Int32}
    {expiry : Duration} (hu : b.find? uid = some u) (h : u.addBuff stat delta expiry = .ok v) :
  (b.replace v).Coherent ∧ v ∈ (b.replace v).units
    ∧ b.InPlace (fun w w' => w' = if w.uid = uid then v else w) (b.replace v)
  := by
  obtain rfl := Battle.find?_uid hu
  have hendures := (BoardUnit.addBuff_restats h).endures (BoardUnit.addBuff_bounded h)
  have hfound := hb.find?_replace hu hendures.uid u.uid
  rw [if_pos rfl] at hfound
  exact ⟨hb.replace hu hendures, Battle.mem_of_find? hfound, hb.inPlace_replace hu hendures.uid⟩

theorem coherent (h : HandsOut grants b b') (hb : b.Coherent) :
  b'.Coherent
  := by
  induction h with
  | nil => exact hb
  | cons hu h _ _ ih => apply ih (replaced hb hu h).1

/-- Every unit takes what is granted to it. -/
theorem inPlace (h : HandsOut grants b b') (hb : b.Coherent) :
  b.InPlace (fun u v => BoardUnit.Takes (grantedTo u.uid grants) u v) b'
  := by
  induction h with
  | nil b => exact .refl (fun u => .nil u) b
  | @cons grant grants b b' u v hu h halive hrest ih =>
    obtain ⟨hcoherent, hmem, hreplaced⟩ := replaced hb hu h
    apply (hreplaced.trans (ih hcoherent)).mono
    rintro w hw w'' - ⟨w', rfl, htakes⟩
    rw [grantedTo_cons]
    by_cases hsame : w.uid = grant.uid
    · have hfind := Battle.find?_of_mem hb.distinct hw
      rw [hsame, hu] at hfind
      obtain rfl := Option.some.inj hfind
      rw [if_pos hsame, (BoardUnit.addBuff_restats h).persists.uid] at htakes
      rw [if_pos hsame.symm]
      exact .cons h (fun hloss => halive hloss v hmem) htakes
    · rw [if_neg hsame] at htakes
      rwa [if_neg (Ne.symm hsame)]

/-- Nothing but statistics and buffs changes where grants are handed out. -/
theorem restats (h : HandsOut grants b b') (hb : b.Coherent) :
  b.InPlace BoardUnit.Restats b'
  := by
  apply (h.inPlace hb).mono
  intro u _ v _ htakes
  apply htakes.restats

end HandsOut

theorem BoardUnit.Restats.refl (u : BoardUnit) :
  u.Restats u
  := rfl

/-! ### Grants in battles that are alike -/

section

variable (hb : b.InPlace BoardUnit.Restats b') (heliminated : event.eliminated = none)

include hb heliminated

/-- A step grants the same in a battle in which only statistics and buffs differ. -/
theorem Step.grants_restats {actor' : BoardUnit} (hactor : actor.Restats actor') (step : Step) :
  step.grants b' actor' event = step.grants b actor event
  := by
  unfold Step.grants
  split
  · next ref stat delta =>
    have hresolve := resolve?_inPlace (fun _ _ h => h) hb hactor
      (Event.related_self heliminated) ref
    revert hresolve
    generalize ref.resolve? b actor event = found
    generalize ref.resolve? b' actor' event = found'
    intro hresolve
    cases hresolve with
    | none => rfl
    | some h => rw [Option.map_some, Option.map_some, h.persists.uid]
  · rfl

variable (htarget : event.target = none)

include htarget

/-- A rule block grants the same in a battle in which only statistics and buffs differ. -/
theorem RuleBlock.grants_restats {u v : BoardUnit} (hu : u.Restats v) (block : RuleBlock) :
  block.grants rules b' v event = block.grants rules b u event
  := by
  rw [RuleBlock.grants, RuleBlock.grants, block.applies_inPlace (fun _ _ h => h) (.inl htarget) hb
    hu (Event.related_self heliminated)]
  congr 2
  funext step
  apply step.grants_restats hb heliminated hu

/-- A unit grants the same in a battle in which only statistics and buffs differ. -/
theorem Ruleset.grantsOf_restats {u v : BoardUnit} (hu : u.Restats v) :
  rules.grantsOf b' event v = rules.grantsOf b event u
  := by
  rw [Ruleset.grantsOf, Ruleset.grantsOf, hu.persists.cardId]
  congr 1
  funext block
  apply block.grants_restats hb heliminated htarget hu

/-- The same is granted in a battle in which only statistics and buffs differ. -/
theorem Ruleset.grants_restats :
  rules.grants b' event = rules.grants b event
  := by
  have hunits := hb.units
  rw [Ruleset.grants, Ruleset.grants]
  have hgrants : ∀ {l l' : List BoardUnit}, List.Forall₂ BoardUnit.Restats l l' →
      l'.flatMap (rules.grantsOf b' event) = l.flatMap (rules.grantsOf b event) := by
    intro l l' hl
    induction hl with
    | nil => rfl
    | cons hu _ ih =>
      rw [List.flatMap_cons, List.flatMap_cons, ih,
        Ruleset.grantsOf_restats hb heliminated htarget hu]
  apply hgrants hunits

end

/-! ### Changes that eliminate no unit -/

/-- A change has a result in which as many units are on the boards as before. -/
def Change.LeadsCalmly (c : Change) (b b' : Battle) : Prop :=
  c.Leads b b' ∧ b'.units.length = b.units.length

/-- A sweep eliminates no unit where all are alive, and then it does nothing. -/
theorem sweepWith_calmly (hb : b.Coherent)
    (hemit : ∀ event b b', (emit event).Leads b b' → Moves b b') (source : Option Uid)
    (depth : UInt32) :
  (sweepWith emit source depth).LeadsCalmly b b' ↔ b' = b ∧ ∀ u ∈ b.units, u.isAlive
  := by
  constructor
  · rintro ⟨⟨r, h⟩, hlength⟩
    have h : (sweepUpTo emit source depth b.units.length).Leads b b' := ⟨r, h⟩
    cases hn : b.units.length with
    | zero =>
      rw [hn] at h
      use leads_done.mp h
      rw [List.length_eq_zero_iff.mp hn]
      simp
    | succ n =>
      rw [hn] at h
      obtain ⟨hnone, rfl⟩ | ⟨owner, gone, m, m', hremove, hannounce, hrest⟩ := sweepUpTo_leads h
      · exact ⟨rfl, hb.removeFallen?_eq_none_iff.mp hnone⟩
      · -- A unit has departed, and none can come in its place.
        have hdeparts := (hb.departs hremove).2
        have hm := hdeparts.coherent hb
        have hless := hdeparts.length_units
        have hmoves := (emits_moves hemit hannounce).trans (sweepUpTo_moves hemit hrest)
        have hmost := hm.length_moves hmoves
        omega
  · rintro ⟨rfl, halive⟩
    refine ⟨?_, rfl⟩
    have hnone := hb.removeFallen?_eq_none_iff.mpr halive
    use {}
    rw [sweepWith]
    cases b'.units.length with
    | zero => rfl
    | succ n =>
      simp only [sweepUpTo, hnone]
      rfl

/-- Of two changes one after another neither eliminates a unit if both together do not. -/
theorem andThen_calmly {first second : Change} (hb : b.Coherent)
    (hfirst : ∀ m, first.Leads b m → Moves b m)
    (hsecond : ∀ m m', second.Leads m m' → Moves m m') :
  (first.andThen second).LeadsCalmly b b'
    ↔ ∃ m, first.LeadsCalmly b m ∧ second.LeadsCalmly m b'
  := by
  constructor
  · rintro ⟨h, hlength⟩
    obtain ⟨m, hm, hb'⟩ := leads_andThen.mp h
    have hmoves := hfirst m hm
    have hle := hb.length_moves hmoves
    have hle' := (hb.moves hmoves).length_moves (hsecond m b' hb')
    exact ⟨m, ⟨hm, by omega⟩, hb', by omega⟩
  · rintro ⟨m, ⟨hm, hlength⟩, hb', hlength'⟩
    exact ⟨leads_andThen.mpr ⟨m, hm, hb'⟩, hlength'.trans hlength⟩

/-- Where every change of a list hands out its grants, all of them together do. -/
theorem forEach_calmly {α : Type} {f : α → Change} {grants : α → List Grant} {l : List α}
    (hmoves : ∀ a ∈ l, ∀ c c', (f a).Leads c c' → Moves c c')
    (hf : ∀ a ∈ l, ∀ c c', c.Coherent → b.InPlace BoardUnit.Restats c →
      ((f a).LeadsCalmly c c' ↔ HandsOut (grants a) c c')) (hm : m.Coherent)
    (halike : b.InPlace BoardUnit.Restats m) :
  (forEach f l).LeadsCalmly m b' ↔ HandsOut (l.flatMap grants) m b'
  := by
  induction l generalizing m with
  | nil =>
    constructor
    · rintro ⟨h, -⟩
      rw [leads_done.mp h]
      exact .nil m
    · intro h
      cases h
      exact ⟨leads_done.mpr rfl, rfl⟩
  | cons a rest ih =>
    have hrest : ∀ c c', (forEach f rest).Leads c c' → Moves c c' := by
      intro c c'
      apply forEach_moves
      intro a ha
      apply hmoves a (List.mem_cons_of_mem _ ha)
    rw [List.flatMap_cons, HandsOut.append_iff, forEach,
      andThen_calmly hm (fun c => hmoves a List.mem_cons_self m c) hrest]
    apply exists_congr
    intro c
    rw [hf a List.mem_cons_self m c hm halike]
    apply and_congr_right
    intro hc
    apply ih
    · intro a ha
      apply hmoves a (List.mem_cons_of_mem _ ha)
    · intro a ha
      apply hf a (List.mem_cons_of_mem _ ha)
    · apply hc.coherent hm
    · apply (halike.trans (hc.restats hm)).mono
      rintro u - w - ⟨v, huv, hvw⟩
      exact huv.trans hvw

/-! ### Broadcasts of continuous effects -/

/-- A step of an aura is skipped, or a unit takes the buff; after a loss of vitality a sweep
follows. -/
theorem runStep_aura_leads {ref : UnitRef} {stat : Stat} {delta : Int32} :
  (runStep rules emit actor event (.modifyStat ref stat delta .aura)).Leads b b'
    ↔ (ref.resolve? b actor event = none ∧ b' = b)
      ∨ ∃ u v, ref.resolve? b actor event = some u ∧ u.addBuff stat delta .aura = .ok v
        ∧ if stat = .vitality ∧ delta < 0 then (sweepAfter emit actor event).Leads (b.replace v) b'
          else b' = b.replace v
  := by
  rw [runStep, onUnit_leads]
  simp only [stepModifyStat_leads, if_true]
  constructor
  · rintro (hskip | ⟨u, hu, v, _, hv, rfl, h⟩)
    · exact .inl hskip
    · exact .inr ⟨u, v, hu, hv, h⟩
  · rintro (hskip | ⟨u, v, hu, hv, h⟩)
    · exact .inl hskip
    · exact .inr ⟨u, hu, v, _, hv, rfl, h⟩

section

variable (hemit : ∀ event b b', (emit event).Leads b b' → Moves b b') {depth : UInt32}
  (hdepth : event.innerDepth = .ok depth)

include hemit hdepth

/-- The sweep after a step eliminates no unit if all are alive. -/
theorem sweepAfter_calmly (hb : b.Coherent) :
  (sweepAfter emit actor event).LeadsCalmly b b' ↔ b' = b ∧ ∀ u ∈ b.units, u.isAlive
  := by
  rw [← sweepWith_calmly hb hemit (some actor.uid) depth]
  simp only [LeadsCalmly, Leads, sweepAfter, hdepth, bind_eq_ok, Except.ok.injEq, exists_eq_left']

/-- A step of an aura hands out what it grants if no unit is eliminated. -/
theorem runStep_calmly (hb : b.Coherent) {step : Step} (hstep : step.IsAura) :
  (runStep rules emit actor event step).LeadsCalmly b b'
    ↔ HandsOut (step.grants b actor event) b b'
  := by
  unfold Step.IsAura at hstep
  split at hstep
  · next ref stat delta =>
    rw [LeadsCalmly, runStep_aura_leads, Step.grants]
    cases hresolve : ref.resolve? b actor event with
    | none =>
      simp only [Option.map_none, Option.toList_none]
      constructor
      · rintro ⟨⟨-, rfl⟩ | ⟨u, v, hu, -⟩, -⟩
        · exact .nil b'
        · cases hu
      · intro h
        cases h
        exact ⟨.inl ⟨trivial, rfl⟩, rfl⟩
    | some u =>
      simp only [Option.map_some, Option.toList_some]
      have hu := find?_of_resolve? hresolve
      have hreplaced : ∀ {v}, u.addBuff stat delta .aura = .ok v →
          (b.replace v).Coherent ∧ (b.replace v).units.length = b.units.length := by
        intro v hv
        obtain ⟨hcoherent, -, hplaces⟩ := HandsOut.replaced hb hu hv
        exact ⟨hcoherent, hplaces.units.length_eq.symm⟩
      constructor
      · rintro ⟨⟨hnone, -⟩ | ⟨u', v, hu', hv, h⟩, hlength⟩
        · cases hnone
        · obtain rfl := Option.some.inj hu'
          obtain ⟨hcoherent, hsame⟩ := hreplaced hv
          split at h
          · obtain ⟨rfl, halive⟩ :=
              (sweepAfter_calmly hemit hdepth hcoherent).mp ⟨h, by rw [hlength, hsame]⟩
            exact .cons hu hv (fun _ => halive) (.nil _)
          · next hgain =>
            subst h
            exact .cons hu hv (fun hloss => absurd hloss hgain) (.nil _)
      · rintro (_ | ⟨hu', hv, halive, hrest⟩)
        obtain rfl := Option.some.inj (hu.symm.trans hu')
        cases hrest
        obtain ⟨hcoherent, hsame⟩ := hreplaced hv
        refine ⟨.inr ⟨u, _, rfl, hv, ?_⟩, hsame⟩
        split
        · next hloss =>
          exact ((sweepAfter_calmly hemit hdepth hcoherent).mpr ⟨rfl, halive hloss⟩).1
        · rfl
  · cases hstep

/-- A script of auras hands out what its steps grant if no unit is eliminated. -/
theorem runScript_calmly (heliminated : event.eliminated = none) {script : List Step}
    (hscript : ∀ step ∈ script, step.IsAura) (hb : b.Coherent) :
  (runScript rules emit actor event script).LeadsCalmly b b'
    ↔ HandsOut (script.flatMap (Step.grants b actor event)) b b'
  := by
  rw [runScript_eq_forEach]
  apply forEach_calmly (b := b) _ _ hb (.refl BoardUnit.Restats.refl b)
  · intro step _ c c' h
    apply runStep_moves hemit h
  · intro step hstep c c' hc halike
    rw [runStep_calmly hemit hdepth hc (hscript step hstep),
      step.grants_restats halike heliminated (BoardUnit.Restats.refl actor)]

variable (heliminated : event.eliminated = none) (htarget : event.target = none)

include heliminated htarget

/-- The rule blocks of a unit hand out what they grant if no unit is eliminated. -/
theorem runBlocks_calmly {u : BoardUnit} (hu : b.find? u.uid = some u) {blocks : List RuleBlock}
    (hblocks : ∀ block ∈ blocks, ∀ step ∈ block.script, step.IsAura) (hb : b.Coherent) :
  (forEach (runBlock rules emit event u.uid none) blocks).LeadsCalmly b b'
    ↔ HandsOut (blocks.flatMap (RuleBlock.grants rules b u event)) b b'
  := by
  apply forEach_calmly (b := b) _ _ hb (.refl BoardUnit.Restats.refl b)
  · intro block _ c c' h
    apply runBlock_moves hemit h
  · intro block hblock c c' hc halike
    obtain ⟨v, hfind, huv⟩ := halike.exists_of_find? (fun _ _ h => h.persists.uid) hu
    rw [← block.grants_restats halike heliminated htarget huv, RuleBlock.grants]
    have hrun : runBlock rules emit event u.uid none block c
        = if block.applies rules c v event then runScript rules emit v event block.script c
          else done c := by
      rw [runBlock, hfind]
      rfl
    by_cases happlies : block.applies rules c v event
    · rw [if_pos happlies] at hrun ⊢
      have hscript : (runScript rules emit v event block.script).LeadsCalmly c c'
          ↔ HandsOut (block.script.flatMap (Step.grants c v event)) c c' :=
        runScript_calmly hemit hdepth heliminated (hblocks block hblock) hc
      rw [← hscript]
      simp only [LeadsCalmly, Leads, hrun]
    · rw [if_neg happlies] at hrun ⊢
      constructor
      · rintro ⟨⟨r, h⟩, -⟩
        rw [hrun] at h
        rw [leads_done.mp ⟨r, h⟩]
        exact .nil c
      · intro h
        cases h
        exact ⟨⟨{}, hrun⟩, rfl⟩

/-- A broadcast hands out what the units grant on its event if no unit is eliminated. -/
theorem broadcast_calmly (hconcerns : ∀ u, event.concerns u) (hdeparted : event.departed? = none)
    (hblocks : ∀ cardId, ∀ block ∈ rules.blocksOf cardId event.trigger,
      ∀ step ∈ block.script, step.IsAura) (hb : b.Coherent) :
  (broadcast rules emit event).LeadsCalmly b b' ↔ HandsOut (rules.grants b event) b b'
  := by
  have hbroadcast : broadcast rules emit event b
      = forEach (fun u => respond rules emit event u.uid) b.units b := by
    rw [broadcast, Event.recipients, hdeparted]
    dsimp only
    rw [forEach_map]
  have hcalmly : (broadcast rules emit event).LeadsCalmly b b'
      ↔ (forEach (fun u => respond rules emit event u.uid) b.units).LeadsCalmly b b' := by
    simp only [LeadsCalmly, Leads, hbroadcast]
  rw [hcalmly]
  apply forEach_calmly (b := b) _ _ hb (.refl BoardUnit.Restats.refl b)
  · intro u _ c c' h
    apply respond_moves hemit h
  · intro u hmem c c' hc halike
    have hu := Battle.find?_of_mem hb.distinct hmem
    obtain ⟨v, hfind, huv⟩ := halike.exists_of_find? (fun _ _ h => h.persists.uid) hu
    have hrespond : respond rules emit event u.uid c
        = forEach (runBlock rules emit event v.uid none) (rules.blocksOf v.cardId event.trigger) c
        := by
      rw [respond, hfind, huv.persists.uid]
      dsimp only
      rw [if_pos (hconcerns v)]
    have hv : c.find? v.uid = some v := by rwa [huv.persists.uid]
    rw [← Ruleset.grantsOf_restats halike heliminated htarget huv, Ruleset.grantsOf,
      ← runBlocks_calmly hemit hdepth heliminated htarget hv (hblocks v.cardId) hc]
    simp only [LeadsCalmly, Leads, hrespond]

end

namespace Ruleset

/-- A continuous effect concerns all units. -/
theorem concerns_of_continuous {trigger : Trigger} (h : trigger.IsContinuous) (player : UInt8)
    (u : BoardUnit) :
  ({ trigger, player } : Event).concerns u
  := by
  obtain rfl | rfl := h <;> rfl

/-- The broadcast of a continuous effect hands out what the units grant, if no unit is
eliminated. -/
theorem emit_calmly (hrules : rules.IsContinuous) {trigger : Trigger}
    (htrigger : trigger.IsContinuous) {player : UInt8} (hb : b.Coherent) :
  (rules.emit { trigger, player }).LeadsCalmly b b'
    ↔ HandsOut (rules.grants b { trigger, player }) b b'
  := by
  have hemit : rules.emit { trigger, player }
      = broadcast rules (rules.emitWithin rules.settings.maxTriggerDepth.toNat)
        { trigger, player } := rfl
  have hdepth : ({ trigger, player } : Event).innerDepth = .ok 1 := rfl
  rw [hemit]
  apply broadcast_calmly (fun _ _ _ => emitWithin_moves) hdepth rfl rfl
    (concerns_of_continuous htrigger player) _ _ hb
  · obtain rfl | rfl := htrigger <;> rfl
  · intro cardId block hblock
    apply hrules.blocksOf htrigger hblock

/-- What the units grant on two continuous effects, one after the other. -/
def continuousGrants (rules : Ruleset) (b : Battle) (player : UInt8) (first second : Trigger) :
    List Grant :=
  [first, second].flatMap fun trigger => rules.grants b { trigger, player }

/-- All that is granted on continuous effects are auras. -/
theorem continuousGrants_aura {player : UInt8} {first second : Trigger} {grant : Grant}
    (h : grant ∈ rules.continuousGrants b player first second) :
  grant.buff.expiry = .aura
  := by
  obtain ⟨trigger, -, h⟩ := List.mem_flatMap.mp h
  exact grants_aura h

/-- The same is granted on continuous effects in a battle in which only statistics and buffs
differ. -/
theorem continuousGrants_restats (hb : b.InPlace BoardUnit.Restats b') {player : UInt8}
    {first second : Trigger} :
  rules.continuousGrants b' player first second = rules.continuousGrants b player first second
  := by
  rw [continuousGrants, continuousGrants]
  congr 1
  funext trigger
  apply grants_restats hb rfl rfl

/-- Two broadcasts of continuous effects hand out what the units grant, if no unit is
eliminated. -/
theorem emits_calmly (hrules : rules.IsContinuous) {first second : Trigger}
    (hfirst : first.IsContinuous) (hsecond : second.IsContinuous) {player : UInt8}
    (hb : b.Coherent) :
  (forEach (fun trigger => rules.emit { trigger, player }) [first, second]).LeadsCalmly b b'
    ↔ HandsOut (rules.continuousGrants b player first second) b b'
  := by
  apply forEach_calmly (b := b) _ _ hb (.refl BoardUnit.Restats.refl b)
  · intro trigger _ c c'
    apply rules.emit_moves
  · intro trigger hmem c c' hc halike
    rw [emit_calmly hrules (Trigger.isContinuous_of_mem hfirst hsecond hmem) hc,
      Ruleset.grants_restats halike rfl rfl]

end Ruleset

end CardBattle
