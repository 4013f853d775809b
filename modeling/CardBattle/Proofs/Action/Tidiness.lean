import CardBattle.Proofs.Action.Accounts
import CardBattle.Proofs.Action.Frame
import CardBattle.Proofs.BoardUnit.Tidiness

/-!
# Battles stay tidy

In every battle that comes by accepted actions from an opening all units are tidy, and what is
noted of a turn, the abilities used and the first attacker, is noted of uids that have been
issued (`reachable_tidy`).  Of the units this is known from what becomes of them in cascades;
the notes are made by actions only.
-/

namespace CardBattle

open Relation (ReflTransGen)
open Change

namespace Battle

/-- What is noted of the turn is noted of uids that have been issued. -/
structure NotesIssued (b : Battle) : Prop where
  used0 : ∀ usage ∈ b.side0.used.keys, b.uids.hasIssued usage.uid
  used1 : ∀ usage ∈ b.side1.used.keys, b.uids.hasIssued usage.uid
  firstAttacker : ∀ uid ∈ b.firstAttacker, b.uids.hasIssued uid

/-- All units are tidy, and what is noted of the turn is noted of uids that have been issued. -/
structure Tidy (catalog : Catalog) (b : Battle) : Prop where
  units : ∀ u ∈ b.units, u.Tidy catalog
  notes : b.NotesIssued

variable {catalog : Catalog} {b m b' : Battle} {player : UInt8}

theorem tidy_opening (seed : UInt64) (deck0 hand0 deck1 hand1 : List String) :
  (opening seed deck0 hand0 deck1 hand1).Tidy catalog
  := by
  constructor
  · intro u hu
    cases hu
  · constructor
    · intro usage husage
      cases husage
    · intro usage husage
      cases husage
    · intro uid huid
      cases huid

/-! ### Notes of the turn -/

theorem NotesIssued.congr (hb : b.NotesIssued) (h0 : b'.side0.used = b.side0.used)
    (h1 : b'.side1.used = b.side1.used) (hfirst : b'.firstAttacker = b.firstAttacker)
    (huids : ∀ uid, b.uids.hasIssued uid → b'.uids.hasIssued uid) :
  b'.NotesIssued
  := by
  constructor
  · rw [h0]
    exact fun usage husage => huids _ (hb.used0 usage husage)
  · rw [h1]
    exact fun usage husage => huids _ (hb.used1 usage husage)
  · rw [hfirst]
    exact fun uid huid => huids _ (hb.firstAttacker uid huid)

theorem NotesIssued.keeps (hb : b.NotesIssued) (h : b.Keeps b') :
  b'.NotesIssued
  := by
  apply hb.congr h.side0.used h.side1.used h.firstAttacker
  rw [h.uids]
  exact fun _ => id

theorem NotesIssued.replace (hb : b.NotesIssued) (u : BoardUnit) :
  (b.replace u).NotesIssued
  := by
  rw [Battle.replace]
  split
  · exact ⟨hb.used0, hb.used1, hb.firstAttacker⟩
  · exact ⟨hb.used0, hb.used1, hb.firstAttacker⟩

theorem NotesIssued.deploys (hb : b.NotesIssued) {handIndex : UInt64} {cell : Cell} {card : Card}
    (h : b.Deploys player handIndex cell card b') :
  b'.NotesIssued
  := by
  have huids : ∀ uid, b.uids.hasIssued uid → b'.uids.hasIssued uid := fun _ => h.hasIssued
  obtain ⟨next, side, i, board, line, -, hside, -, -, -, rfl⟩ := h
  obtain ⟨rfl, rfl⟩ | ⟨rfl, rfl⟩ := side?_cases hside
  · exact hb.congr rfl rfl rfl huids
  · exact hb.congr rfl rfl rfl huids

theorem NotesIssued.strike (hb : b.NotesIssued) {attacker target : BoardUnit} {amount : Int32}
    (h : Ruleset.strike b attacker target = .ok (b', amount)) :
  b'.NotesIssued
  := by
  obtain ⟨hurt, -, ⟨-, rfl⟩ | ⟨u, modifiers, -, rfl⟩⟩ := Ruleset.strike_ok h
  · apply hb.replace
  · apply (hb.replace hurt).replace

/-- A use is noted of a uid that has been issued. -/
theorem NotesIssued.markUsed (hb : b.NotesIssued) {side : Side} (usage : Usage)
    (hside : b.side? player = some side) (husage : b.uids.hasIssued usage.uid) :
  (b.setSide player (side.markUsed usage)).NotesIssued
  := by
  have hmarked : ∀ used : SortedSet Usage, (∀ u ∈ used.keys, b.uids.hasIssued u.uid) →
      ∀ u ∈ (used.insert usage ()).keys, b.uids.hasIssued u.uid := by
    intro used hused u hu
    rcases SortedMap.mem_keys_insert.mp hu with rfl | hu
    · apply husage
    · apply hused u hu
  obtain ⟨rfl, rfl⟩ | ⟨rfl, rfl⟩ := side?_cases hside
  · exact ⟨hmarked _ hb.used0, hb.used1, hb.firstAttacker⟩
  · exact ⟨hb.used0, hmarked _ hb.used1, hb.firstAttacker⟩

theorem NotesIssued.uses (hb : b.NotesIssued) {uid : Uid} {slot : UInt8} {ability : Ability}
    (huid : b.uids.hasIssued uid) (h : b.Uses player uid slot ability b') :
  b'.NotesIssued
  := by
  obtain ⟨side, m, hside, rfl, hrest⟩ := h
  have hmarked := hb.markUsed ⟨uid, slot⟩ hside huid
  obtain ⟨-, rfl⟩ | ⟨u, -, rfl⟩ := hrest
  · apply hmarked
  · apply hmarked.replace

/-! ### Units -/

theorem forall_changeAll {P : BoardUnit → Prop} {f : BoardUnit → Except Fault BoardUnit}
    (hf : ∀ u v, P u → f u = .ok v → P v) (hb : ∀ u ∈ b.units, P u)
    (h : b.changeAll f = .ok b') :
  ∀ u ∈ b'.units, P u
  := by
  intro v hv
  obtain ⟨u, hu, huv⟩ := descends_changeAll (R := fun u v => f u = .ok v) (fun _ _ => id) h v hv
  apply hf u v (hb u hu) huv

/-- A strike leaves all units tidy. -/
theorem Coherent.strike_tidy (hb : b.Coherent) {attacker target : BoardUnit} {amount : Int32}
    (htarget : b.find? target.uid = some target)
    (h : Ruleset.strike b attacker target = .ok (b', amount))
    (hunits : ∀ u ∈ b.units, u.Tidy catalog) :
  ∀ u ∈ b'.units, u.Tidy catalog
  := by
  obtain ⟨hurt, hhurt, hrest⟩ := Ruleset.strike_ok h
  have hundergoes : target.Undergoes hurt := .damage hhurt
  have hendures := hundergoes.alters.endures
  have hstruck : ∀ u ∈ (b.replace hurt).units, u.Tidy catalog := by
    apply hb.forall_replace htarget hendures.uid _ hunits
    apply (hunits target (mem_of_find? htarget)).undergoes hundergoes
  obtain ⟨-, rfl⟩ | ⟨u, modifiers, hu, rfl⟩ := hrest
  · apply hstruck
  · have htidy := hstruck u (mem_of_find? hu)
    rw [← find?_uid hu] at hu
    have hspent : BoardUnit.Tidy catalog { u with hasAttacked := true, modifiers } :=
      ⟨htidy.statuses, htidy.immunities, htidy.buffs, htidy.counters⟩
    exact (hb.replace htarget hendures).forall_replace hu rfl hspent hstruck

/-- The use of an ability of its card leaves the unit tidy, and the others as they are. -/
theorem Coherent.uses_tidy (hb : b.Coherent) {uid : Uid} {slot : UInt8} {ability : Ability}
    {card : Card} (hslot : slot ∈ card.activeSlots)
    (hcard : ∀ u, b.find? uid = some u → catalog.find? u.cardId = some card)
    (h : b.Uses player uid slot ability b') (hunits : ∀ u ∈ b.units, u.Tidy catalog) :
  ∀ u ∈ b'.units, u.Tidy catalog
  := by
  obtain ⟨side, m, hside, rfl, hrest⟩ := h
  have hsame : (b.setSide player (side.markUsed ⟨uid, slot⟩)).units = b.units :=
    units_shift (t := side.markUsed ⟨uid, slot⟩) hside rfl
  have hmarked := hb.shift (s := side.markUsed ⟨uid, slot⟩) hside rfl
  rw [← hsame] at hunits
  obtain ⟨-, rfl⟩ | ⟨u, hu, rfl⟩ := hrest
  · apply hunits
  · have hfound : b.find? uid = some u := by rwa [find?, ← hsame]
    have hused := (hunits u (mem_of_find? hu)).afterUse (hcard u hfound) hslot ability
    obtain rfl := find?_uid hu
    exact hmarked.forall_replace hu rfl hused hunits

end Battle

namespace Ruleset

variable {rules : Ruleset} {b b' : Battle} {player : UInt8}

theorem refresh_tidy (hb : b.Coherent) {first second : Trigger}
    (hunits : ∀ u ∈ b.units, u.Tidy rules.catalog)
    (h : (rules.refresh player first second).Leads b b') :
  ∀ u ∈ b'.units, u.Tidy rules.catalog
  := by
  have hhereditary := BoardUnit.Tidy.isHereditary rules.catalog
  obtain ⟨lacks, m₁, m₂, m₃, ⟨hexpire, hm₁⟩, ⟨hannounce, -, -⟩, ⟨hkeep, hm₃⟩, hsweep⟩ :=
    refresh_coherent hb h
  have hexpired : ∀ u ∈ m₁.units, u.Tidy rules.catalog :=
    Battle.forall_changeAll (fun _ _ hu => hu.expireBuffs) hunits hexpire
  have hannounced : ∀ u ∈ m₂.units, u.Tidy rules.catalog := by
    apply hm₁.incidents_forall hhereditary hexpired
    apply forEach_incidents _ hannounce
    intro trigger _
    apply rules.emit_incidents
  have hkept : ∀ u ∈ m₃.units, u.Tidy rules.catalog := by
    apply Battle.forall_changeAll _ hannounced hkeep
    intro u v hu hv
    obtain rfl := Except.ok.inj hv
    apply hu.keepLack
  apply hm₃.incidents_forall hhereditary hkept (rules.sweep_incidents hsweep)

theorem emitAndRefresh_tidy (hb : b.Coherent) {event : Event} {first second : Trigger}
    (hunits : ∀ u ∈ b.units, u.Tidy rules.catalog)
    (h : (rules.emitAndRefresh event first second).Leads b b') :
  ∀ u ∈ b'.units, u.Tidy rules.catalog
  := by
  obtain ⟨m, hemit, hrefresh⟩ := leads_andThen.mp h
  apply refresh_tidy (hb.moves (rules.emit_moves _ _ _ hemit)) _ hrefresh
  apply hb.incidents_forall (BoardUnit.Tidy.isHereditary _) hunits
  apply rules.emit_incidents _ _ _ hemit

/-! ### Actions -/

theorem playUnit_tidy (hb : b.Coherent) {handIndex : UInt64} {cell : Cell} {id : String}
    {card : Card} {r : Report} (hcard : rules.catalog.find? id = some card)
    (htidy : b.Tidy rules.catalog)
    (h : rules.playUnit player handIndex cell card b = .ok (b', r)) :
  b'.Tidy rules.catalog
  := by
  obtain ⟨m, hdeploys, hrest⟩ := playUnit_ok h
  have hm := hb.deploys hdeploys
  obtain rfl := Catalog.find?_id hcard
  constructor
  · apply emitAndRefresh_tidy hm _ hrest
    intro u hu
    rcases List.mem_append.mp (hdeploys.units_perm.subset hu) with hu | hu
    · apply htidy.units u hu
    · obtain rfl := List.mem_singleton.mp hu
      apply BoardUnit.tidy_ofCard _ _ _ hcard
  · apply (htidy.notes.deploys hdeploys).keeps
    apply emitAndRefresh_keeps hm hrest

theorem moveUnit_tidy (hb : b.Coherent) {uid : Uid} {cell : Cell} {r : Report}
    (htidy : b.Tidy rules.catalog) (h : rules.moveUnit player uid cell b = .ok (b', r)) :
  b'.Tidy rules.catalog
  := by
  obtain ⟨m, hrelocates, hrest⟩ := moveUnit_ok h
  obtain ⟨m', hrearranges, hcoherent, hlogs⟩ := hb.relocates hrelocates
  constructor
  · apply emitAndRefresh_tidy (hcoherent.logs hlogs) _ hrest
    rw [hlogs.units_eq]
    apply hrearranges.forall_units (BoardUnit.Tidy.isHereditary _).elsewhere htidy.units
  · apply htidy.notes.keeps (moveUnit_keeps hb h)

/-- The attacker is on a board when it is noted as the first one. -/
theorem attackUnit_tidy (hb : b.Coherent) {attacker target : Uid} {att : BoardUnit}
    (hatt : b.find? attacker = some att) (htidy : b.Tidy rules.catalog)
    (h : (rules.attackUnit player attacker target).Leads b b') :
  b'.Tidy rules.catalog
  := by
  have hhereditary := BoardUnit.Tidy.isHereditary rules.catalog
  have hissued : b.uids.hasIssued attacker := by
    rw [← Battle.find?_uid hatt]
    apply (hb.fit att (Battle.mem_of_find? hatt)).issued
  obtain ⟨m, hdeclare, hrest⟩ := attackUnit_leads h
  have hb' := hb.noteAttacker attacker
  have hnoted : ({ b with
      firstAttacker := b.firstAttacker <|> some attacker } : Battle).NotesIssued := by
    use htidy.notes.used0, htidy.notes.used1
    intro uid huid
    cases hfirst : b.firstAttacker with
    | none =>
      rw [hfirst] at huid
      obtain rfl := Option.some.inj huid
      apply hissued
    | some first =>
      rw [hfirst] at huid
      obtain rfl := Option.some.inj huid
      apply htidy.notes.firstAttacker _ hfirst
  have hmoves := rules.emit_moves _ _ _ hdeclare
  have hm := hb'.moves hmoves
  have hnotes := hnoted.keeps (hb'.moves_keep hmoves)
  have hunits : ∀ u ∈ m.units, u.Tidy rules.catalog :=
    hb'.incidents_forall hhereditary htidy.units (rules.emit_incidents _ _ _ hdeclare)
  obtain ⟨-, hlogs⟩ | ⟨att', tgt, m₁, amount, line, m₂, -, -, htgt, hstrike, hhit, hsweep⟩ := hrest
  · use by rw [hlogs.units_eq]; exact hunits
    apply hnotes.keeps hlogs.keeps
  · have hlogs := m₁.record_logs line
    have hm₁ := (hm.strike htgt hstrike).logs hlogs
    have hstruck := hm.strike_tidy htgt hstrike hunits
    rw [← hlogs.units_eq] at hstruck
    have hincidents := (rules.emit_incidents _ _ _ hhit).trans (rules.sweep_incidents hsweep)
    use hm₁.incidents_forall hhereditary hstruck hincidents
    apply ((hnotes.strike hstrike).keeps hlogs.keeps).keeps
    apply hm₁.moves_keep (incidents_moves hincidents)

theorem mem_activeSlots {card : Card} {slot : UInt8} {ability : Ability}
    (h : card.activeAbility? slot = some ability) :
  slot ∈ card.activeSlots
  := by
  have hslot := List.find?_some h
  have hmem := List.mem_of_find?_eq_some h
  apply List.mem_map.mpr
  use (slot, ability)
  refine ⟨List.mem_filterMap.mpr ⟨ability, hmem, ?_⟩, rfl⟩
  rw [of_decide_eq_true hslot]
  rfl

theorem activate_tidy (hb : b.Coherent) {uid : Uid} {slot : UInt8} {target : Option Uid}
    {ability : Ability} {u : BoardUnit} {card : Card} {r : Report}
    (hu : b.find? uid = some u) (hcard : rules.cardOf? u = some card)
    (hability : card.activeAbility? slot = some ability) (htidy : b.Tidy rules.catalog)
    (h : rules.activate player uid slot target ability b = .ok (b', r)) :
  b'.Tidy rules.catalog
  := by
  have hhereditary := BoardUnit.Tidy.isHereditary rules.catalog
  obtain ⟨m, m', hpaid, hrun, huses⟩ := activate_pays h
  have hpaid : Incidents b m :=
    hpaid.lift id fun _ _ htouch => .touch (htouch.mono fun _ _ => False.elim)
  have hincidents := hpaid.trans (rules.runActivation_incidents hrun)
  have hmoves := incidents_moves hincidents
  have hkeeps := hb.moves_keep hmoves
  have hunits := hb.incidents_forall hhereditary htidy.units hincidents
  constructor
  · apply (hb.moves hmoves).uses_tidy (mem_activeSlots hability) _ huses hunits
    intro v hv
    obtain ⟨u', hu', hpersists⟩ := hkeeps.find? hb hv
    obtain rfl := Option.some.inj (hu.symm.trans hu')
    rw [hpersists.cardId]
    apply hcard
  · apply (htidy.notes.keeps hkeeps).uses _ huses
    rw [hkeeps.uids, ← Battle.find?_uid hu]
    apply (hb.fit u (Battle.mem_of_find? hu)).issued

/-- With the turn all notes of it end. -/
theorem endTurn_tidy (hb : b.Coherent) (htidy : b.Tidy rules.catalog)
    (h : rules.endTurn.Leads b b') :
  b'.Tidy rules.catalog
  := by
  have hhereditary := BoardUnit.Tidy.isHereditary rules.catalog
  obtain ⟨m₁, m₂, m₃, hchange, hsweep, hpasses, hrest⟩ := endTurn_leads h
  have hb' : ({ b with side0.used := ∅, side1.used := ∅ } : Battle).Coherent :=
    hb.congr hb.active rfl rfl rfl
  have hm₁ := hb'.changeAll (fun u v => BoardUnit.endCycle_endures) hchange
  have hincidents := rules.sweep_incidents hsweep
  have hswept := hm₁.moves_keep (incidents_moves hincidents)
  have hm₃ := (hm₁.moves (incidents_moves hincidents)).passesTurn hpasses
  have hunits : ∀ u ∈ ({ b with side0.used := ∅, side1.used := ∅ } : Battle).units,
      u.Tidy rules.catalog := htidy.units
  have hended := Battle.forall_changeAll (fun _ _ hu => hu.endCycle) hunits hchange
  have hcleared : m₁.side0.used = ∅ ∧ m₁.side1.used = ∅ := by
    obtain ⟨board0, -, hchange⟩ := bind_eq_ok.mp hchange
    obtain ⟨board1, -, hchange⟩ := bind_eq_ok.mp hchange
    obtain rfl := pure_eq_ok.mp hchange
    exact ⟨rfl, rfl⟩
  constructor
  · apply emitAndRefresh_tidy hm₃ _ hrest
    have hunits := hm₁.incidents_forall hhereditary hended hincidents
    rw [hpasses.units]
    exact hunits
  · have hnotes : m₃.NotesIssued := by
      constructor
      · rw [hpasses.side0, hswept.side0.used, hcleared.1]
        exact fun _ husage => absurd husage List.not_mem_nil
      · rw [hpasses.side1, hswept.side1.used, hcleared.2]
        exact fun _ husage => absurd husage List.not_mem_nil
      · intro uid huid
        rw [hpasses.firstAttacker] at huid
        cases huid
    apply hnotes.keeps (emitAndRefresh_keeps hm₃ hrest)

/-- An accepted action leaves a tidy battle tidy. -/
theorem resolve_tidy {action : Action} {resolution : Resolution}
    (h : rules.resolve b action = .ok resolution) (htidy : b.Tidy rules.catalog) :
  resolution.battle.Tidy rules.catalog
  := by
  obtain ⟨permit, report, hpermit, hcarry⟩ := resolve_ok h
  obtain ⟨hintegrity, hchecked⟩ := permit_ok hpermit
  have hb := (Battle.corruption?_eq_none_iff.mp hintegrity).toCoherent
  cases permit with
  | playUnit player handIndex cell card =>
    obtain ⟨side, id, -, -, hcard, -⟩ := hchecked
    apply playUnit_tidy hb hcard htidy hcarry
  | move player uid cell => apply moveUnit_tidy hb htidy hcarry
  | attack player attacker target =>
    obtain ⟨u, hu, -⟩ := hchecked
    apply attackUnit_tidy hb hu htidy ⟨report, lift_fault_eq_ok.mp hcarry⟩
  | activate player uid slot target ability =>
    obtain ⟨side, u, card, -, hu, -, hcard, hability⟩ := hchecked
    apply activate_tidy hb hu hcard hability htidy hcarry
  | endTurn => apply endTurn_tidy hb htidy ⟨report, lift_fault_eq_ok.mp hcarry⟩

end Ruleset

/-- In every battle that comes by accepted actions from an opening, the statuses of a unit have
different names, regardless of case, and so have its immunities; no change for good is kept
among its buffs; its cooldowns are those of the active abilities of its card, and only these
have uses left; and the abilities used and the first attacker are noted of uids that have been
issued. -/
theorem reachable_tidy {rules : Ruleset} {seed : UInt64} {deck0 hand0 deck1 hand1 : List String}
    {b : Battle} (h : ReflTransGen rules.Accepts (.opening seed deck0 hand0 deck1 hand1) b) :
  b.Tidy rules.catalog
  := by
  induction h with
  | refl => apply Battle.tidy_opening
  | tail _ hstep ih =>
    obtain ⟨action, resolution, haccept, rfl⟩ := hstep
    apply Ruleset.resolve_tidy haccept ih

/-- A card that brings its unit into statuses, one of them twice, and makes it immune to one of
them twice, when the unit enters the battle. -/
def Card.herbalist : Card :=
  { id := "herbalist"
    name := "Herbalist"
    stats := { vitality := 3 }
    abilities := [
      { kind := .enter
        rules := [{
          trigger := .onDeploy
          script := [.applyStatus .self "Poison" none, .applyStatus .self "POISON" (some "again"),
            .applyStatus .self "Stun" none, .grantImmunity { includesSelf := true }
              ["burn", "Burn"], .modifyStat .self .impact 2 .permanent,
            .modifyStat .self .impact 1 .endOfCycle] }] },
      { kind := .active
        slot := some 1
        cooldown := some 1
        uses := some 2
        rules := [{ trigger := .activate, script := [.removeStatus .self "poison"] }] }] }

/-- A herbalist is in no status twice when it has entered the battle, and cures itself of one. -/
theorem reachable_tidy_herbalist :
  let rules : Ruleset := { catalog := ⟨[.herbalist], by decide⟩ }
  let opening : Battle := .opening 1 [] ["herbalist"] [] []
  ∃ m b, rules.Accepts opening m ∧ rules.Accepts m b
    ∧ (∃ u ∈ m.units, u.statuses = [⟨"Poison", none⟩, ⟨"Stun", none⟩] ∧ u.immunities = ["burn"]
      ∧ u.buffs.length = 1)
    ∧ (∃ u ∈ b.units, u.statuses = [⟨"Stun", none⟩] ∧ u.cooldowns.keys = [1])
    ∧ b.side0.used.keys = [⟨⟨1⟩, 1⟩]
    ∧ m.Tidy rules.catalog ∧ b.Tidy rules.catalog
  := by
  intro rules opening
  have hresult : (rules.resolve opening (.playUnit 0 0 ⟨.front, 0⟩)).toOption.any fun deployed =>
      (deployed.battle.units.any fun u =>
        u.statuses = [⟨"Poison", none⟩, ⟨"Stun", none⟩] && u.immunities = ["burn"]
          && u.buffs.length = 1)
      && (rules.resolve deployed.battle (.activate 0 ⟨1⟩ 1 none)).toOption.any fun cured =>
        (cured.battle.units.any fun u => u.statuses = [⟨"Stun", none⟩] && u.cooldowns.keys = [1])
        && cured.battle.side0.used.keys = [⟨⟨1⟩, 1⟩] := by
    decide +kernel
  rcases hdeploy : rules.resolve opening (.playUnit 0 0 ⟨.front, 0⟩) with stop | deployed
  · rw [hdeploy] at hresult
    cases hresult
  · rw [hdeploy] at hresult
    simp only [Except.toOption, Option.any_some, Bool.and_eq_true, List.any_eq_true,
      decide_eq_true_eq] at hresult
    obtain ⟨⟨u, hu, ⟨hstatuses, himmunities⟩, hbuffs⟩, hcure⟩ := hresult
    rcases hcured : rules.resolve deployed.battle (.activate 0 ⟨1⟩ 1 none) with stop | cured
    · rw [hcured] at hcure
      cases hcure
    · rw [hcured] at hcure
      simp only [Option.any_some, Bool.and_eq_true, List.any_eq_true,
        decide_eq_true_eq] at hcure
      obtain ⟨⟨v, hv, hleft, hkeys⟩, hused⟩ := hcure
      have hfirst : rules.Accepts opening deployed.battle := ⟨_, deployed, hdeploy, rfl⟩
      have hsecond : rules.Accepts deployed.battle cured.battle := ⟨_, cured, hcured, rfl⟩
      refine ⟨deployed.battle, cured.battle, hfirst, hsecond,
        ⟨u, hu, hstatuses, himmunities, hbuffs⟩, ⟨v, hv, hleft, hkeys⟩, hused, ?_, ?_⟩
      · exact reachable_tidy (.single hfirst)
      · exact reachable_tidy (.tail (.single hfirst) hsecond)

end CardBattle
