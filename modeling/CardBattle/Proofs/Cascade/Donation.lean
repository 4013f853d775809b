import CardBattle.Proofs.Cascade.Provenance
import Mathlib.Data.List.Flatten
import Mathlib.Data.List.Nodup
import Mathlib.Data.List.Perm.Subperm

/-!
# Whose auras units are left with

The rule blocks of a unit donate to other units what they offer them.  In a broadcast of a
continuous effect a donation is handed out unless its source has been eliminated by then
(`Battle.Receives`).  At the end of a refresh, therefore, the auras of a unit are, up to their
order, what the units on the boards grant to it, and perhaps some of what is granted to it by
units that were eliminated in that refresh (`refresh_auras`).
-/

namespace CardBattle

open Relation (ReflTransGen)
open Change

/-- What a rule block offers in a script that `actor` runs on an event. -/
def RuleBlock.offers (actor : BoardUnit) (event : Event) (block : RuleBlock) : List Grant :=
  block.script.flatMap (Step.offers actor event)

/-- What a rule block offers, and the uid of the unit that it belongs to. -/
structure Donation where
  source : Uid
  offers : List Grant

/-- What the rule blocks of a unit donate on an event. -/
def Ruleset.donations (rules : Ruleset) (event : Event) (u : BoardUnit) : List Donation :=
  (rules.blocksOf u.cardId event.trigger).map fun block => ⟨u.uid, block.offers u event⟩

/-- What units donate on two continuous effects, one after the other. -/
def Ruleset.continuousDonations (rules : Ruleset) (units : List BoardUnit) (player : UInt8)
    (first second : Trigger) : List Donation :=
  [first, second].flatMap fun trigger => units.flatMap (rules.donations { trigger, player })

/-- What is donated to the unit of a uid. -/
def donatedTo (uid : Uid) (donations : List Donation) : List Buff :=
  donations.flatMap fun donation => grantedTo uid donation.offers

/-- The uid and the card of a unit. -/
def BoardUnit.entry (u : BoardUnit) : Uid × String :=
  (u.uid, u.cardId)

/-- What some units grant on two continuous effects, one after the other. -/
def Ruleset.grantsBy (rules : Ruleset) (b : Battle) (units : List BoardUnit) (player : UInt8)
    (first second : Trigger) : List Grant :=
  [first, second].flatMap fun trigger => units.flatMap (rules.grantsOf b { trigger, player })

/-- The auras of each unit are, up to their order, what the units on the boards of the second
battle grant to it, and perhaps some of what the units granted to it in the first one that
have been lost. -/
def Ruleset.FreshAuras (rules : Ruleset) (player : UInt8) (first second : Trigger)
    (b b' : Battle) : Prop :=
  ∀ v ∈ b'.units, ∃ late : List Buff,
    (v.expiring .aura).Perm
      (grantedTo v.uid (rules.continuousGrants b' player first second) ++ late)
    ∧ late.Subperm (grantedTo v.uid (rules.grantsBy b (b.lost b') player first second))

/-- Some donations have been handed out, and among them are all whose source is still on a
board. -/
def Battle.Receives (donations : List Donation) (b b' : Battle) : Prop :=
  ∃ handed : List Donation, handed.Subperm donations
    ∧ (handed.filter fun donation => b'.has donation.source).Perm
      (donations.filter fun donation => b'.has donation.source)
    ∧ b.Gives (handed.flatMap Donation.offers) b'

variable {rules : Ruleset} {emit : Event → Change} {actor : BoardUnit} {event : Event}
  {b m b' : Battle} {u v : BoardUnit} {donations donations' : List Donation}

/-! ### Donations one after another -/

/-- What passes a stricter test is the same in lists in which this is so of another test. -/
theorem filter_perm_of_imp {α : Type} {p q : α → Bool} (hpq : ∀ a, q a → p a) {l l' : List α}
    (h : (l.filter p).Perm (l'.filter p)) :
  (l.filter q).Perm (l'.filter q)
  := by
  have hboth : ∀ l : List α, (l.filter p).filter q = l.filter q := by
    intro l
    rw [List.filter_filter]
    apply List.filter_congr
    intro a _
    cases hq : q a with
    | false => rfl
    | true => simp [hpq a hq]
  have hq := h.filter q
  rwa [hboth, hboth] at hq

namespace Battle

/-- Where auras are given, nothing more need be received. -/
theorem Gives.receives (h : b.Gives [] b') :
  b.Receives [] b'
  := ⟨[], List.nil_subperm, .refl _, h⟩

theorem Receives.trans (h : b.Receives donations m) (h' : m.Receives donations' b') :
  b.Receives (donations ++ donations') b'
  := by
  obtain ⟨handed, hsubperm, hpresent, hgives⟩ := h
  obtain ⟨handed', hsubperm', hpresent', hgives'⟩ := h'
  refine ⟨handed ++ handed', hsubperm.append hsubperm', ?_, ?_⟩
  · rw [List.filter_append, List.filter_append]
    apply (filter_perm_of_imp (fun _ => hgives'.has) hpresent).append hpresent'
  · rw [List.flatMap_append]
    exact hgives.trans hgives'

theorem Receives.then_nothing (h : b.Receives donations m) (h' : m.Gives [] b') :
  b.Receives donations b'
  := by
  have hreceives := h.trans h'.receives
  rwa [List.append_nil] at hreceives

/-- Nothing is received from a unit that is not on a board. -/
theorem receives_of_absent (hsource : ∀ donation ∈ donations, ¬b'.has donation.source)
    (h : b.Gives [] b') :
  b.Receives donations b'
  := by
  refine ⟨[], List.nil_subperm, ?_, h⟩
  rw [List.filter_eq_nil_iff.mpr hsource]
  rfl

end Battle

/-! ### Broadcasts of continuous effects -/

/-- What a rule block offers depends only on the uid of its unit. -/
theorem RuleBlock.offers_congr (huid : v.uid = u.uid) (block : RuleBlock) :
  block.offers v event = block.offers u event
  := by
  have hnamed : ∀ ref : UnitRef, ref.uid? v event = ref.uid? u event := by
    intro ref
    cases ref with
    | self => exact congrArg some huid
    | _ => rfl
  have hsteps : Step.offers v event = Step.offers u event := by
    funext step
    unfold Step.offers
    simp only [hnamed]
  rw [offers, offers, hsteps]

theorem Ruleset.donations_source {donation : Donation} (h : donation ∈ rules.donations event u) :
  donation.source = u.uid
  := by
  obtain ⟨block, -, rfl⟩ := List.mem_map.mp h
  rfl

section

variable (hmoves : ∀ event b b', (emit event).Leads b b' → Moves b b')
  (hnothing : ∀ event b b', ¬event.trigger.IsContinuous → b.Coherent →
    (emit event).Leads b b' → b.Gives [] b')

include hmoves hnothing

/-- What a rule block offers is received if its unit is still there. -/
theorem runBlock_receives (hb : b.Coherent) {block : RuleBlock}
    (hscript : ∀ step ∈ block.script, step.IsAura)
    (happlies : ∀ b u, block.applies rules b u event)
    (h : (runBlock rules emit event u.uid none block).Leads b b') :
  b.Receives [⟨u.uid, block.offers u event⟩] b'
  := by
  obtain ⟨r, h⟩ := h
  cases hfound : b.find? u.uid with
  | none =>
    rw [runBlock, hfound] at h
    rw [leads_done.mp ⟨r, h⟩]
    apply Battle.receives_of_absent _ (.refl b)
    simp [Battle.has, hfound]
  | some actor =>
    rw [runBlock, hfound] at h
    simp only [Option.orElse_eq_orElse, Option.orElse_some, happlies, if_true] at h
    have hgives := runScript_gives hmoves hnothing hb hscript ⟨r, h⟩
    refine ⟨_, List.Subperm.refl _, .refl _, ?_⟩
    rw [List.flatMap_singleton, ← block.offers_congr (Battle.find?_uid hfound)]
    exact hgives

/-- The rule blocks of a unit are received as its donations. -/
theorem runBlocks_receives (hb : b.Coherent) {blocks : List RuleBlock}
    (hscript : ∀ block ∈ blocks, ∀ step ∈ block.script, step.IsAura)
    (happlies : ∀ block ∈ blocks, ∀ b u, block.applies rules b u event)
    (h : (forEach (runBlock rules emit event u.uid none) blocks).Leads b b') :
  b.Receives (blocks.map fun block => ⟨u.uid, block.offers u event⟩) b'
  := by
  rw [List.map_eq_flatMap]
  apply forEach_accounts (P := Battle.Coherent) (R := fun l c c' => c.Receives l c') _ _ _ _ hb h
  · intro c
    apply (Battle.Gives.refl c).receives
  · intro x y c m c' hx hy
    apply hx.trans hy
  · intro block _ c c' hc hleads
    apply hc.moves (runBlock_moves hmoves hleads)
  · intro block hblock c c' hc hleads
    apply runBlock_receives hmoves hnothing hc (hscript block hblock) (happlies block hblock) hleads

variable (hconcerns : ∀ u, event.concerns u) (hdeparted : event.departed? = none)
  (hscript : ∀ cardId, ∀ block ∈ rules.blocksOf cardId event.trigger,
    ∀ step ∈ block.script, step.IsAura)
  (happlies : ∀ cardId, ∀ block ∈ rules.blocksOf cardId event.trigger,
    ∀ b u, block.applies rules b u event)

include hconcerns hdeparted hscript happlies

/-- The donations of a unit are received if it is still there. -/
theorem respond_receives (hb : b.Coherent)
    (hcard : ∀ v, b.find? u.uid = some v → v.cardId = u.cardId)
    (h : (respond rules emit event u.uid).Leads b b') :
  b.Receives (rules.donations event u) b'
  := by
  obtain ⟨rfl, hnot⟩ | ⟨v, hv, -, hblocks⟩ | ⟨gone, -, hgone, -⟩ := respond_leads h
  · apply Battle.receives_of_absent _ (.refl b')
    intro donation hdonation
    rw [Ruleset.donations_source hdonation, Battle.has]
    intro hsome
    obtain ⟨v, hv⟩ := Option.isSome_iff_exists.mp hsome
    exact hnot v hv (hconcerns v)
  · rw [hcard v hv] at hblocks
    exact runBlocks_receives hmoves hnothing hb (hscript u.cardId) (happlies u.cardId) hblocks
  · rw [hdeparted] at hgone
    cases hgone

/-- In a broadcast the donations of all units are received that are still there. -/
theorem broadcast_receives (hb : b.Coherent) (h : (broadcast rules emit event).Leads b b') :
  b.Receives (b.units.flatMap (rules.donations event)) b'
  := by
  obtain ⟨r, h⟩ := h
  rw [broadcast, Event.recipients, hdeparted] at h
  have h : (forEach (respond rules emit event) (b.units.map BoardUnit.uid)).Leads b b' := ⟨r, h⟩
  rw [forEach_map] at h
  apply forEach_accounts (P := Moves b) (R := fun l c c' => c.Receives l c') _ _ _ _ .refl h
  · intro c
    apply (Battle.Gives.refl c).receives
  · intro x y c m c' hx hy
    apply hx.trans hy
  · intro u _ c c' hc hleads
    apply hc.trans (respond_moves hmoves hleads)
  · intro u hu c c' hc hleads
    have hc' := hb.moves hc
    apply respond_receives hmoves hnothing hconcerns hdeparted hscript happlies hc' _ hleads
    intro v hv
    obtain ⟨w, hw, hkeeps⟩ := (hb.moves_keep hc).find? hb hv
    obtain rfl := Option.some.inj ((Battle.find?_of_mem hb.distinct hu).symm.trans hw)
    exact hkeeps.cardId

end

/-- The broadcast of a continuous effect hands out the donations of all units that are still
there. -/
theorem Ruleset.emit_receives (hrules : rules.ConfinesAuras) {trigger : Trigger}
    (htrigger : trigger.IsContinuous) {player : UInt8} (hb : b.Coherent)
    (h : (rules.emit { trigger, player }).Leads b b') :
  b.Receives (b.units.flatMap (rules.donations { trigger, player })) b'
  := by
  have hemit : rules.emit { trigger, player }
      = broadcast rules (rules.emitWithin rules.settings.maxTriggerDepth.toNat)
        { trigger, player } := rfl
  rw [hemit] at h
  apply broadcast_receives (fun _ _ _ => emitWithin_moves) (emitWithin_gives_nil hrules _)
    (concerns_of_continuous htrigger player) _ _ _ hb h
  · obtain rfl | rfl := htrigger <;> rfl
  · intro cardId block hblock
    apply hrules.continuous.blocksOf htrigger hblock
  · intro cardId block hblock b u
    apply hrules.applies htrigger hblock

/-! ### Donations of the units on the boards -/

namespace Ruleset

/-- What a unit donates depends only on its uid and its card. -/
theorem donations_congr (huid : v.uid = u.uid) (hcard : v.cardId = u.cardId) :
  rules.donations event v = rules.donations event u
  := by
  rw [donations, donations, huid, hcard]
  apply List.map_congr_left
  intro block _
  rw [block.offers_congr huid]

/-- The donations whose source passes a test are those of the units that do. -/
theorem donations_filter (p : Uid → Bool) (units : List BoardUnit) :
  (units.flatMap (rules.donations event)).filter (fun donation => p donation.source)
    = (units.filter fun u => p u.uid).flatMap (rules.donations event)
  := by
  induction units with
  | nil => rfl
  | cons u rest ih =>
    rw [List.flatMap_cons, List.filter_append, ih]
    by_cases hp : p u.uid
    · rw [List.filter_cons, if_pos hp, List.flatMap_cons, List.filter_eq_self.mpr]
      intro donation hdonation
      rwa [donations_source hdonation]
    · rw [List.filter_cons, if_neg hp, List.filter_eq_nil_iff.mpr, List.nil_append]
      intro donation hdonation
      rwa [donations_source hdonation]

end Ruleset

theorem BoardUnit.Persists.entry (h : u.Persists v) :
  v.entry = u.entry
  := by rw [BoardUnit.entry, BoardUnit.entry, h.uid, h.cardId]

/-- Where auras are given, the units that are still there are all that there are. -/
theorem Battle.Gives.perm_entries {grants : List Grant} (h : b.Gives grants b')
    (hb : b.Coherent) (hb' : b'.Coherent) :
  ((b.units.filter fun u => b'.has u.uid).map BoardUnit.entry).Perm
    (b'.units.map BoardUnit.entry)
  := by
  apply hb.perm_present _ hb'
  · intro v hv
    obtain ⟨u, hu, hpersists, -⟩ := h v hv
    exact ⟨u, hu, hpersists⟩
  · intro u v hpersists
    apply hpersists.entry

/-- Where auras are given, the donations of the units that are still there are those of all that
there are. -/
theorem Ruleset.donations_present {grants : List Grant} (h : b.Gives grants b')
    (hb : b.Coherent) (hb' : b'.Coherent) :
  ((b.units.flatMap (rules.donations event)).filter fun donation => b'.has donation.source).Perm
    (b'.units.flatMap (rules.donations event))
  := by
  have hfactors : (rules.donations event).FactorsThrough BoardUnit.entry := by
    intro u v hentry
    obtain ⟨huid, hcard⟩ := Prod.mk.inj hentry
    apply donations_congr huid hcard
  have hperm := (h.perm_entries hb hb').flatMap_right
    (Function.extend BoardUnit.entry (rules.donations event) fun _ => [])
  rw [List.flatMap_map, List.flatMap_map] at hperm
  rw [donations_filter b'.has]
  simpa only [hfactors.extend_apply] using hperm

/-- What is received from the units that are left can be put down as received from all that
there were. -/
theorem Battle.Receives.of_lost {grants : List Grant} (hgives : b.Gives grants m)
    (hb : b.Coherent) (hm : m.Coherent) (hb' : b'.Coherent)
    (h : m.Receives (m.units.flatMap (rules.donations event)) b') :
  m.Receives (b.units.flatMap (rules.donations event)) b'
  := by
  obtain ⟨handed, hsubperm, hpresent, hgives'⟩ := h
  refine ⟨handed, ?_, ?_, hgives'⟩
  · apply hsubperm.trans
    apply (Ruleset.donations_present hgives hb hm).symm.subperm.trans
    apply List.filter_sublist.subperm
  · apply hpresent.trans
    apply (Ruleset.donations_present hgives' hm hb').trans
    apply (Ruleset.donations_present (hgives.trans hgives') hb hb').symm

/-! ### Auras after a refresh -/

theorem donatedTo_append (uid : Uid) (donations donations' : List Donation) :
  donatedTo uid (donations ++ donations') = donatedTo uid donations ++ donatedTo uid donations'
  := List.flatMap_append

theorem donatedTo_perm (uid : Uid) (h : donations.Perm donations') :
  (donatedTo uid donations).Perm (donatedTo uid donations')
  := h.flatMap_right _

theorem donatedTo_subperm (uid : Uid) (h : donations.Subperm donations') :
  (donatedTo uid donations).Subperm (donatedTo uid donations')
  := by
  obtain ⟨l, hperm, hsublist⟩ := h
  use donatedTo uid l, donatedTo_perm uid hperm
  apply hsublist.flatMap

theorem grantedTo_flatMap {α : Type} (uid : Uid) (f : α → List Grant) (l : List α) :
  grantedTo uid (l.flatMap f) = l.flatMap fun a => grantedTo uid (f a)
  := by
  induction l with
  | nil => rfl
  | cons a rest ih => rw [List.flatMap_cons, List.flatMap_cons, grantedTo_append, ih]

namespace Ruleset

variable (hrules : rules.ConfinesAuras) {player : UInt8} {first second : Trigger}
  (hfirst : first.IsContinuous) (hsecond : second.IsContinuous)

theorem continuousDonations_filter (p : Uid → Bool) (units : List BoardUnit) :
  (rules.continuousDonations units player first second).filter
      (fun donation => p donation.source)
    = rules.continuousDonations (units.filter fun u => p u.uid) player first second
  := by
  rw [continuousDonations, List.filter_flatMap]
  apply List.flatMap_congr
  intro trigger _
  apply donations_filter

theorem continuousDonations_present {grants : List Grant} (h : b.Gives grants b')
    (hb : b.Coherent) (hb' : b'.Coherent) :
  ((rules.continuousDonations b.units player first second).filter
      fun donation => b'.has donation.source).Perm
    (rules.continuousDonations b'.units player first second)
  := by
  rw [continuousDonations, List.filter_flatMap]
  apply List.Perm.flatMap_left
  intro trigger _
  apply donations_present h hb hb'

/-- Units donate the same when their auras are taken back. -/
theorem continuousDonations_expire
    (h : b.changeAll (fun u => u.expireBuffs .aura) = .ok b') :
  rules.continuousDonations b'.units player first second
    = rules.continuousDonations b.units player first second
  := by
  apply List.flatMap_congr
  intro trigger _
  have hdonations := Battle.map_changeAll (g := rules.donations { trigger, player }) (by
    intro u v huv
    have hpersists := (BoardUnit.expireBuffs_restats huv).persists
    apply donations_congr hpersists.uid hpersists.cardId) h
  rw [List.flatMap_def, List.flatMap_def, hdonations]

include hrules hfirst hsecond

/-- To a unit on a board are donated the grants of the units. -/
theorem donatedTo_continuousDonations {uid : Uid} (huid : b.has uid) (units : List BoardUnit) :
  donatedTo uid (rules.continuousDonations units player first second)
    = grantedTo uid (rules.grantsBy b units player first second)
  := by
  rw [donatedTo, continuousDonations, grantsBy, List.flatMap_assoc, grantedTo_flatMap]
  apply List.flatMap_congr
  intro trigger htrigger
  have htrigger := Trigger.isContinuous_of_mem hfirst hsecond htrigger
  rw [List.flatMap_assoc, grantedTo_flatMap]
  apply List.flatMap_congr
  intro u _
  rw [donations, grantsOf, List.flatMap_map, grantedTo_flatMap]
  apply List.flatMap_congr
  intro block hblock
  rw [RuleBlock.offers, RuleBlock.grants, if_pos (hrules.applies htrigger hblock b u _),
    grantedTo_flatMap, grantedTo_flatMap]
  apply List.flatMap_congr
  intro step _
  apply Step.grantedTo_offers huid

/-- The broadcasts of two continuous effects hand out the donations of all units that are still
there. -/
theorem emits_receives (hb : b.Coherent)
    (h : (forEach (fun trigger => rules.emit { trigger, player }) [first, second]).Leads b b') :
  b.Receives (rules.continuousDonations b.units player first second) b'
  := by
  apply forEach_accounts (P := fun c => c.Coherent ∧ ∃ grants, b.Gives grants c)
    (R := fun l c c' => c.Receives l c') _ _ _ _ ⟨hb, [], .refl b⟩ h
  · intro c
    apply (Battle.Gives.refl c).receives
  · intro x y c m c' hx hy
    apply hx.trans hy
  · rintro trigger htrigger c c' ⟨hc, grants, hgives⟩ hleads
    have htrigger := Trigger.isContinuous_of_mem hfirst hsecond htrigger
    use hc.moves (rules.emit_moves _ _ _ hleads)
    obtain ⟨handed, -, -, hhanded⟩ := emit_receives hrules htrigger hc hleads
    exact ⟨_, hgives.trans hhanded⟩
  · rintro trigger htrigger c c' ⟨hc, grants, hgives⟩ hleads
    have htrigger := Trigger.isContinuous_of_mem hfirst hsecond htrigger
    apply Battle.Receives.of_lost hgives hb hc (hc.moves (rules.emit_moves _ _ _ hleads))
    apply emit_receives hrules htrigger hc hleads

/-- A refresh takes the auras back, and it hands out the donations of all units that are still
there at its end. -/
theorem refresh_receives (hb : b.Coherent)
    (h : (rules.refresh player first second).Leads b b') :
  ∃ m, b.changeAll (fun u => u.expireBuffs .aura) = .ok m ∧ m.Coherent ∧ b'.Coherent
    ∧ m.Receives (rules.continuousDonations m.units player first second) b'
  := by
  obtain ⟨lacks, m₁, m₂, m₃, ⟨hexpire, hm₁⟩, ⟨hannounce, -, hm₂⟩, ⟨hkeep, hm₃⟩, hsweep⟩ :=
    refresh_coherent hb h
  refine ⟨m₁, hexpire, hm₁, (sweep_sound hm₃ hsweep).toCoherent, ?_⟩
  apply (emits_receives hrules hfirst hsecond hm₁ hannounce).then_nothing
  apply Battle.Gives.then_nothing (m := m₃)
  · apply Battle.gives_nil_iff.mpr (Battle.descends_changeAll _ hkeep)
    intro u v hv
    obtain rfl := Except.ok.inj hv
    apply (BoardUnit.keepLack_restats lacks u).keepsAuras
    rw [BoardUnit.keepLack_eq]
  · exact sweepUpTo_gives_nil rules.emit_moves (emit_gives_nil hrules) hm₃ hsweep

end Ruleset

/-- After a refresh the auras of each unit are what the units on the boards grant to it, and
perhaps some of what units that were eliminated in the refresh granted to it. -/
theorem refresh_auras (hrules : rules.ConfinesAuras) (hb : b.Coherent) {player : UInt8}
    {first second : Trigger} (hfirst : first.IsContinuous) (hsecond : second.IsContinuous)
    (h : (rules.refresh player first second).Leads b b') :
  rules.FreshAuras player first second b b'
  := by
  obtain ⟨m, hexpire, hm, hb', handed, hsubperm, hpresent, hgives⟩ :=
    Ruleset.refresh_receives hrules hfirst hsecond hb h
  intro v hv
  obtain ⟨u, hu, hpersists, hauras⟩ := hgives v hv
  obtain ⟨u₀, hu₀, hexpired⟩ := (Battle.changeAll_eq_ok.mp hexpire).exists_unit hu
  have hbefore : b.has v.uid := by
    rw [hpersists.uid, (BoardUnit.expireBuffs_restats hexpired).persists.uid]
    exact Battle.has_of_mem hu₀
  rw [BoardUnit.expireBuffs_expiring hexpired, List.nil_append, grantedTo_flatMap] at hauras
  have hauras : v.expiring .aura = donatedTo v.uid handed := hauras
  use donatedTo v.uid (handed.filter fun donation => !b'.has donation.source)
  constructor
  · have hgrants : grantedTo v.uid (rules.continuousGrants b' player first second)
        = donatedTo v.uid (rules.continuousDonations b'.units player first second) := by
      rw [Ruleset.donatedTo_continuousDonations hrules hfirst hsecond (Battle.has_of_mem hv)]
      rfl
    have hthere := hpresent.trans (Ruleset.continuousDonations_present hgives hm hb')
    have hparts := donatedTo_perm v.uid
      (List.filter_append_perm (fun donation => b'.has donation.source) handed)
    rw [donatedTo_append] at hparts
    rw [hauras, hgrants]
    apply hparts.symm.trans
    apply (donatedTo_perm v.uid hthere).append_right
  · rw [Ruleset.continuousDonations_expire hexpire] at hsubperm
    have hlost := donatedTo_subperm v.uid (hsubperm.filter fun donation => !b'.has donation.source)
    rwa [Ruleset.continuousDonations_filter fun uid => !b'.has uid,
      Ruleset.donatedTo_continuousDonations hrules hfirst hsecond hbefore] at hlost

end CardBattle
