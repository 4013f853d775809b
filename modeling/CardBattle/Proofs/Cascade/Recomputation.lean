import CardBattle.Proofs.Cascade.Grants
import CardBattle.Proofs.Cascade.Overflow

/-!
# Recomputing auras

A refresh that eliminates no unit takes all auras back, hands the grants of the continuous
effects out, and lowers vitality where the unit lacked more before (`refresh_calmly`).  When
it is done again from there, the same is granted, and each unit follows its own course of the
first time: its vitality is full, or it is so much that even the losses to come leave it what
it had at the end (`BoardUnit.Follows`).  So the second refresh eliminates no unit either, and
it changes nothing, provided that no maximum of vitality is cut off at zero while the auras
are taken back (`refresh_again`).
-/

namespace CardBattle

open Relation (ReflTransGen)
open Change

/-! ### What units lack -/

/-- The results of a computation on each member of a list are those of the members, in
order. -/
theorem forall_of_mapM {ε α β : Type} {f : α → Except ε β} {l : List α} {l' : List β}
    (h : l.mapM f = .ok l') :
  List.Forall₂ (fun a c => f a = .ok c) l l'
  := by
  induction l generalizing l' with
  | nil =>
    obtain rfl := pure_eq_ok.mp h
    exact .nil
  | cons a rest ih =>
    rw [List.mapM_cons] at h
    obtain ⟨c, hc, h⟩ := bind_eq_ok.mp h
    obtain ⟨rest', hrest, h⟩ := bind_eq_ok.mp h
    obtain rfl := pure_eq_ok.mp h
    exact .cons hc (ih hrest)

/-- Where uids are distinct, there is only one unit of a uid. -/
theorem filter_uid_of_distinct {units : List BoardUnit}
    (hdistinct : (units.map BoardUnit.uid).Nodup) {u : BoardUnit} (hu : u ∈ units) :
  units.filter (fun v => v.uid = u.uid) = [u]
  := by
  obtain ⟨left, right, hunits⟩ := List.append_of_mem hu
  have hunits : units = left ++ [u] ++ right := by simpa using hunits
  rw [hunits] at hdistinct ⊢
  have hne := Battle.uid_ne_of_distinct hdistinct
  have hnone : ∀ part : List BoardUnit, (∀ v ∈ part, v ∈ left ++ right) →
      part.filter (fun v => v.uid = u.uid) = [] := by
    intro part hpart
    apply List.filter_eq_nil_iff.mpr
    intro v hv
    simpa using hne v (hpart v hv)
  rw [List.filter_append, List.filter_append, hnone left (by simp_all), hnone right (by simp_all)]
  simp

/-- What is noted for the unit of a uid is what it lacks. -/
theorem of?_lacks {b : Battle} {l : Lacks} (hdistinct : (b.units.map BoardUnit.uid).Nodup)
    (h : b.lacks = .ok l) {u : BoardUnit} (hu : u ∈ b.units) :
  ∃ lack, l.of? u.uid = some lack
    ∧ lack.toInt = u.vitalityMax.toInt - u.vitality.toInt
  := by
  have hnoted : List.Forall₂
      (fun u e => e.1 = u.uid ∧ e.2.toInt = u.vitalityMax.toInt - u.vitality.toInt) b.units l := by
    apply (forall_of_mapM h).imp
    intro u e he
    obtain ⟨lack, hlack, he⟩ := bind_eq_ok.mp he
    obtain rfl := pure_eq_ok.mp he
    exact ⟨rfl, Word.subtract_eq_ok_iff.mp hlack⟩
  have hsame := List.rel_filter (p := fun v => v.uid = u.uid) (q := fun e => e.1 = u.uid)
    (fun v e hve => by simp [hve.1]) hnoted
  rw [filter_uid_of_distinct hdistinct hu] at hsame
  rw [Lacks.of?]
  generalize l.filter (fun e => e.1 = u.uid) = noted at hsame
  cases hsame with
  | cons he hrest =>
    cases hrest
    exact ⟨_, rfl, he.2⟩

namespace BoardUnit

variable {u v w : BoardUnit} {l : Lacks}

/-- A unit with enough vitality is left with so much that it lacks what is noted. -/
theorem keepLack_of_enough {lack : Int32} (hlack : l.of? u.uid = some lack)
    (hleast : 0 ≤ u.vitalityMax.toInt - lack.toInt)
    (henough : u.vitalityMax.toInt - lack.toInt ≤ u.vitality.toInt) :
  (u.keepLack l).vitality.toInt = u.vitalityMax.toInt - lack.toInt
  := by
  rw [keepLack, hlack]
  have hhigh := u.vitality.toInt_lt
  dsimp only
  rw [Word.toInt_nearest_of_le (by omega) (by omega)]
  omega

/-! ### The same course again -/

/-- Nothing but the vitality of two units differs, and that of the second is full, or even
the losses that are still to come leave it no less than `goal`. -/
structure Follows (goal : Int) (rest : List Buff) (u v : BoardUnit) : Prop where
  eq : v = { u with vitality := v.vitality }
  ranged : u.Ranged
  follower : v.Ranged
  enough : v.vitality = v.vitalityMax ∨ goal + Buff.losses rest ≤ v.vitality.toInt

variable {goal : Int} {buff : Buff} {rest : List Buff}

/-- A unit that follows one that is alive is alive too. -/
theorem Follows.alive (h : u.Follows goal rest v) (hgoal : 0 < goal) (hu : u.isAlive) :
  v.isAlive
  := by
  have hlosses := Buff.losses_nonneg rest
  have hranged := h.ranged.high
  have htop : v.vitalityMax = u.vitalityMax := by rw [h.eq]
  rw [isAlive_iff] at *
  rcases h.enough with hfull | henough
  · rw [hfull, htop]
    omega
  · omega

/-- A change of another statistic is the same whatever the vitality is. -/
theorem modifyStat_other_withVitality {stat : Stat} {delta : Int32} (hstat : stat ≠ .vitality)
    (h : u.modifyStat delta stat = .ok w) (vitality : Int32) :
  { u with vitality }.modifyStat delta stat = .ok { w with vitality }
  := by
  cases stat with
  | vitality => exact absurd rfl hstat
  | impact =>
    obtain ⟨x, hx, h⟩ := bind_eq_ok.mp h
    obtain rfl := pure_eq_ok.mp h
    exact bind_eq_ok.mpr ⟨x, hx, rfl⟩
  | defence =>
    obtain ⟨x, hx, h⟩ := bind_eq_ok.mp h
    obtain rfl := pure_eq_ok.mp h
    exact bind_eq_ok.mpr ⟨x, hx, rfl⟩
  | velocity =>
    obtain ⟨x, hx, h⟩ := bind_eq_ok.mp h
    obtain rfl := pure_eq_ok.mp h
    exact bind_eq_ok.mpr ⟨x, hx, rfl⟩

/-- Vitality can be changed where it is left in the range of numbers and the maximum can be
changed as well. -/
theorem modifyStat_vitality_exists {u : BoardUnit} {delta top : Int32}
    (htop : Word.add u.vitalityMax delta = .ok top) (hleft : 0 ≤ u.vitality.toInt + delta.toInt)
    (hmost : u.vitality.toInt ≤ u.vitalityMax.toInt) :
  ∃ v, u.modifyStat delta .vitality = .ok v
  := by
  have hlt := top.toInt_lt
  have hadd := Word.add_eq_ok_iff.mp htop
  have hsum : (Int32.ofInt (u.vitality.toInt + delta.toInt)).toInt
      = u.vitality.toInt + delta.toInt := by
    apply Int32.toInt_ofInt_of_le <;> omega
  obtain ⟨v, hv⟩ := u.withVitality_exists (Int32.ofInt (u.vitality.toInt + delta.toInt)) top
  use v
  apply bind_eq_ok.mpr ⟨top, htop, _⟩
  exact bind_eq_ok.mpr ⟨_, Word.add_eq_ok_iff.mpr hsum, hv⟩

/-- A change of vitality that a unit has had and stayed alive, one that follows it can have
too. -/
theorem Follows.modifyStat_vitality (h : u.Follows goal (buff :: rest) v) (hgoal : 0 < goal)
    (hstat : buff.stat = .vitality) (hu : u.modifyStat buff.delta .vitality = .ok w)
    (halive : buff.IsLoss → w.isAlive) :
  ∃ w', v.modifyStat buff.delta .vitality = .ok w' ∧ w.Follows goal rest w'
  := by
  obtain ⟨heq, hranged, ⟨hlow, hhigh⟩, henough⟩ := h
  obtain ⟨-, hgained, hranged'⟩ := modifyStat_exact hranged (hstat ▸ hu) halive
  have hlosses := Buff.losses_nonneg rest
  have htop : v.vitalityMax = u.vitalityMax := by rw [heq]
  have hdelta : buff.change .vitality = buff.delta.toInt := by rw [Buff.change, if_pos hstat]
  rw [Buff.losses_cons] at henough
  have hleft : 0 ≤ v.vitality.toInt + buff.delta.toInt := by
    rcases henough with hfull | henough
    · have high := hranged'.high
      have low := hranged'.low
      rw [hfull, htop]
      omega
    · omega
  obtain ⟨hw, -, -⟩ := modifyStat_vitality_ok hu
  obtain ⟨top, hadd, -⟩ := bind_eq_ok.mp hu
  obtain ⟨w', hmodify⟩ := modifyStat_vitality_exists (by rwa [htop]) hleft hhigh
  obtain ⟨hw'eq, htop', hvitality'⟩ := modifyStat_vitality_ok hmodify
  rw [htop] at htop' hhigh
  have hsame : w'.vitalityMax = w.vitalityMax := by
    apply Int32.toInt_inj.mp
    omega
  refine ⟨w', hmodify, ?_, hranged', ⟨by omega, by omega⟩, ?_⟩
  · rw [hw'eq, hsame, heq, hw]
  · rcases henough with hfull | henough
    · left
      apply Int32.toInt_inj.mp
      rw [hfull, htop] at hvitality'
      omega
    · right
      omega

/-- A change of another statistic that a unit has had, one that follows it can have too. -/
theorem Follows.modifyStat_other (h : u.Follows goal (buff :: rest) v)
    (hstat : buff.stat ≠ .vitality) (hu : u.modifyStat buff.delta buff.stat = .ok w) :
  ∃ w', v.modifyStat buff.delta buff.stat = .ok w' ∧ w.Follows goal rest w'
  := by
  obtain ⟨heq, hranged, ⟨hlow, hhigh⟩, henough⟩ := h
  have hloss : ¬buff.IsLoss := fun hloss => hstat hloss.1
  obtain ⟨-, -, hranged'⟩ := modifyStat_exact hranged hu fun h => absurd h hloss
  have hother := modifyStat_other_ok hstat hu
  have hsame : w.vitalityMax = v.vitalityMax := by rw [hother, heq]
  refine ⟨{ w with vitality := v.vitality }, ?_, rfl, hranged', ⟨hlow, ?_⟩, ?_⟩
  · rw [heq]
    apply modifyStat_other_withVitality hstat hu
  · dsimp only
    rwa [hsame]
  · rcases henough with hfull | henough
    · left
      dsimp only
      rw [hfull, hsame]
    · right
      dsimp only
      rw [Buff.losses_cons, Buff.change, if_neg hstat] at henough
      omega

/-- A change that a unit has had and stayed alive, one that follows it can have too. -/
theorem Follows.modifyStat (h : u.Follows goal (buff :: rest) v) (hgoal : 0 < goal)
    (hu : u.modifyStat buff.delta buff.stat = .ok w) (halive : buff.IsLoss → w.isAlive) :
  ∃ w', v.modifyStat buff.delta buff.stat = .ok w' ∧ w.Follows goal rest w'
  := by
  by_cases hstat : buff.stat = .vitality
  · rw [hstat] at hu ⊢
    exact h.modifyStat_vitality hgoal hstat hu halive
  · exact h.modifyStat_other hstat hu

/-- A buff that a unit has taken and stayed alive, one that follows it can take too. -/
theorem Follows.addBuff (h : u.Follows goal (buff :: rest) v) (hgoal : 0 < goal)
    (haura : buff.expiry = .aura) (hu : u.addBuff buff.stat buff.delta buff.expiry = .ok w)
    (halive : buff.IsLoss → w.isAlive) :
  ∃ w', v.addBuff buff.stat buff.delta buff.expiry = .ok w' ∧ w.Follows goal rest w'
  := by
  rw [haura] at hu ⊢
  obtain ⟨x, hx, hu⟩ := bind_eq_ok.mp hu
  obtain rfl := pure_eq_ok.mp hu
  obtain ⟨x', hx', heq, hranged, hfollower, henough⟩ := h.modifyStat hgoal hx halive
  have hbuffs : x'.buffs = x.buffs := by rw [heq]
  refine ⟨_, bind_eq_ok.mpr ⟨x', hx', rfl⟩, ?_, ⟨hranged.low, hranged.high⟩,
    ⟨hfollower.low, hfollower.high⟩, henough⟩
  rw [hbuffs, heq]

end BoardUnit

/-! ### The same grants again -/

/-- What has been handed out in a battle can be handed out in one whose units follow. -/
theorem HandsOut.follow {grants : List Grant} {m m' n : Battle} {goal : Uid → Int}
    (h : HandsOut grants m m') (hauras : ∀ grant ∈ grants, grant.buff.expiry = .aura)
    (hm : m.Coherent) (hn : n.Coherent) (hgoal : ∀ uid, 0 < goal uid)
    (hfollows : m.InPlace (fun u v => u.Follows (goal u.uid) (grantedTo u.uid grants) v) n) :
  ∃ n', HandsOut grants n n' ∧ m'.InPlace (fun u v => u.Follows (goal u.uid) [] v) n'
  := by
  induction h generalizing n with
  | nil m => exact ⟨n, .nil n, hfollows⟩
  | @cons grant grants m m' u w hu h halive hrest ih =>
    have huid := Battle.find?_uid hu
    obtain ⟨v, hv, huv⟩ := hfollows.exists_of_find? (fun u v h => by rw [h.eq]) hu
    obtain ⟨hmcoherent, hwmem, hmreplaced⟩ := HandsOut.replaced hm hu h
    rw [huid, grantedTo_cons, if_pos rfl] at huv
    obtain ⟨w', hw', hww'⟩ := huv.addBuff (hgoal _) (hauras _ List.mem_cons_self) h
      fun hloss => halive hloss w hwmem
    obtain ⟨hncoherent, -, hnreplaced⟩ := HandsOut.replaced hn hv hw'
    have hfollows' : (m.replace w).InPlace
        (fun u v => u.Follows (goal u.uid) (grantedTo u.uid grants) v) (n.replace w') := by
      apply ((hmreplaced.symm.trans hfollows).trans hnreplaced).mono
      rintro x - y - ⟨y₀, ⟨x₀, rfl, hxy⟩, rfl⟩
      have hsame : y₀.uid = x₀.uid := by rw [hxy.eq]
      by_cases hx : x₀.uid = grant.uid
      · rw [if_pos hx, if_pos (hsame.trans hx), (BoardUnit.addBuff_restats h).persists.uid,
          huid]
        exact hww'
      · rw [grantedTo_cons, if_neg (Ne.symm hx)] at hxy
        rwa [if_neg hx, if_neg (by rwa [hsame])]
    obtain ⟨n', hn', hlast⟩ := ih (fun g hg => hauras g (List.mem_cons_of_mem _ hg))
      hmcoherent hncoherent hfollows'
    refine ⟨n', .cons hv hw' ?_ hn', hlast⟩
    intro hloss y hy
    obtain ⟨x, hx, hxy⟩ := hfollows'.exists_unit hy
    apply hxy.alive (hgoal _) (halive hloss x hx)

/-! ### The course of a unit in a refresh -/

namespace BoardUnit

variable {u u₁ u₂ v₁ v₂ w : BoardUnit} {l : Lacks} {buffs : List Buff}

theorem stat_keepLack {stat : Stat} (hstat : stat ≠ .vitality) (l : Lacks) (u : BoardUnit) :
  (u.keepLack l).stat stat = u.stat stat
  := by
  rw [keepLack_eq]
  cases stat with
  | vitality => exact absurd rfl hstat
  | _ => rfl

/-- The auras that a unit has taken are all the auras that it has, if it had none before. -/
theorem expiring_of_takes (h₁ : u.expireBuffs .aura = .ok u₁) (hu : u.Ranged)
    (htakes : Takes buffs u₁ u₂) (hauras : ∀ buff ∈ buffs, buff.expiry = .aura) :
  (u₂.keepLack l).expiring .aura = buffs
    ∧ (u₂.keepLack l).buffs.filter (fun buff => buff.expiry ≠ .aura) = u₁.buffs
  := by
  have hbuffs : (u₂.keepLack l).buffs = u₁.buffs ++ buffs := by
    rw [keepLack_eq]
    exact (htakes.gains (expireBuffs_ranged hu h₁) hauras).noted
  have hkept : ∀ buff ∈ u₁.buffs, buff.expiry ≠ .aura := by
    intro buff hbuff
    rw [expireBuffs_buffs h₁] at hbuff
    exact of_decide_eq_true (List.mem_filter.mp hbuff).2
  rw [expiring, hbuffs, List.filter_append, List.filter_append]
  constructor
  · rw [List.filter_eq_nil_iff.mpr (by simpa using hkept),
      List.filter_eq_self.mpr (by simpa using hauras), List.nil_append]
  · rw [List.filter_eq_self.mpr (by simpa using hkept),
      List.filter_eq_nil_iff.mpr (by simpa using hauras), List.append_nil]

/-- When the auras of a unit are taken back after a refresh, and nothing is cut off, it follows
the course of the refresh. -/
theorem YieldsAuras.follows (hyields : w.YieldsAuras) (hw : w = u₂.keepLack l)
    (hranged : w.Ranged) (h₁ : u.expireBuffs .aura = .ok u₁) (hu : u.Ranged)
    (htakes : Takes buffs u₁ u₂) (hauras : ∀ buff ∈ buffs, buff.expiry = .aura)
    (hv₁ : w.expireBuffs .aura = .ok v₁) :
  u₁.Follows w.vitality.toInt buffs v₁
  := by
  have hu₁ := expireBuffs_ranged hu h₁
  have hgains := htakes.gains hu₁ hauras
  obtain ⟨hexpiring, hkept⟩ := expiring_of_takes (l := l) h₁ hu htakes hauras
  rw [← hw] at hexpiring hkept
  have hrestats : u₁.Restats v₁ := by
    apply hgains.restats.trans
    apply (keepLack_restats l u₂).trans
    rw [← hw]
    exact expireBuffs_restats hv₁
  have htop : w.vitalityMax.toInt = u₁.vitalityMax.toInt + Buff.total .vitality buffs := by
    rw [hw, keepLack_eq]
    exact hgains.top
  have hwhole := hyields v₁ hv₁
  have hlack := hyields.lack hranged hv₁
  rw [hexpiring] at hwhole hlack
  have htotal := Buff.total_vitality buffs
  refine ⟨?_, hu₁, expireBuffs_ranged hranged hv₁, ?_⟩
  · apply hrestats.ext (w := { u₁ with vitality := v₁.vitality }) rfl
    · intro stat
      by_cases hstat : stat = .vitality
      · subst hstat
        rfl
      · have hother : { u₁ with vitality := v₁.vitality }.stat stat = u₁.stat stat := by
          cases stat with
          | vitality => exact absurd rfl hstat
          | _ => rfl
        rw [hother, expireBuffs_other hstat hv₁, hexpiring, hw, stat_keepLack hstat, hgains.stat]
        omega
    · dsimp only
      omega
    · rw [expireBuffs_buffs hv₁, hkept]
  · by_cases hfull : v₁.vitalityMax.toInt - v₁.vitality.toInt = 0
    · left
      apply Int32.toInt_inj.mp
      omega
    · right
      omega

/-- A unit that has followed the course of a refresh to its end lacks as much again. -/
theorem Follows.keepLack_eq_last (hfollows : u₂.Follows w.vitality.toInt [] v₂)
    (hw : w = u₂.keepLack l) (hranged : w.Ranged) {l' : Lacks} {lack : Int32}
    (hlack : l'.of? w.uid = some lack)
    (hnoted : lack.toInt = w.vitalityMax.toInt - w.vitality.toInt) :
  v₂.keepLack l' = w
  := by
  have huid : v₂.uid = w.uid := by rw [hfollows.eq, hw, keepLack_eq]
  have htop : v₂.vitalityMax = w.vitalityMax := by rw [hfollows.eq, hw, keepLack_eq]
  have hlow := hranged.low
  have hhigh := hranged.high
  have hvitality : (v₂.keepLack l').vitality = w.vitality := by
    apply Int32.toInt_inj.mp
    rw [keepLack_of_enough (huid ▸ hlack), hnoted, htop]
    · omega
    · rw [htop]
      omega
    · have henough := hfollows.enough
      rw [Buff.losses_nil, htop] at henough
      rw [htop]
      rcases henough with hfull | henough
      · rw [hfull]
        omega
      · omega
  rw [keepLack_eq, hvitality, hfollows.eq]
  rw [keepLack_eq] at hw
  rw [hw]

/-- If a refresh leads a unit back to itself, then nothing was cut off when its auras were
taken back. -/
theorem yieldsAuras_of_same (hw : w = v₂.keepLack l) (hranged : w.Ranged)
    (hv₁ : w.expireBuffs .aura = .ok v₁) (htakes : Takes buffs v₁ v₂)
    (hauras : ∀ buff ∈ buffs, buff.expiry = .aura) :
  w.YieldsAuras
  := by
  intro v hv
  obtain rfl := Except.ok.inj (hv₁.symm.trans hv)
  have hgains := htakes.gains (expireBuffs_ranged hranged hv₁) hauras
  obtain ⟨hexpiring, -⟩ := expiring_of_takes (l := l) hv₁ hranged htakes hauras
  have htop : w.vitalityMax = v₂.vitalityMax := by
    rw [hw, keepLack_eq]
  rw [← hw] at hexpiring
  rw [hexpiring, htop, hgains.top]
  omega

end BoardUnit

/-! ### The course of a battle in a refresh -/

namespace Battle

/-- In a sound battle the vitality of all units is in its range. -/
theorem Sound.ranged {b : Battle} (hb : b.Sound) {u : BoardUnit} (hu : u ∈ b.units) :
  u.Ranged
  := (hb.fit u hu).bounded.ranged (hb.alive u hu)

variable {b m₁ m₂ b' n₁ n₂ n₃ : Battle} {l l' : Lacks} {grants : List Grant} {goal : Uid → Int}

/-- When the auras are taken back after a refresh that has led from `b` to `b'`, and nothing is
cut off, all units follow the course of the refresh. -/
theorem follows_of_yields (hranged : ∀ u ∈ b.units, u.Ranged)
    (hexpired : b.InPlace (fun u v => u.expireBuffs .aura = .ok v) m₁)
    (htaken : m₁.InPlace (fun u v => BoardUnit.Takes (grantedTo u.uid grants) u v) m₂)
    (hauras : ∀ grant ∈ grants, grant.buff.expiry = .aura)
    (hkept : m₂.InPlace (fun u v => v = u.keepLack l) b')
    (hunits : ∀ w ∈ b'.units, w.Ranged ∧ w.YieldsAuras ∧ goal w.uid = w.vitality.toInt)
    (hexpired' : b'.InPlace (fun u v => u.expireBuffs .aura = .ok v) n₁) :
  m₁.InPlace (fun u v => u.Follows (goal u.uid) (grantedTo u.uid grants) v) n₁
  := by
  have hfirst : b.InPlace (fun u v => u.Ranged ∧ u.expireBuffs .aura = .ok v) m₁ :=
    hexpired.mono fun u hu v _ h => ⟨hranged u hu, h⟩
  have hlast : b'.InPlace (fun w v => w ∈ b'.units ∧ w.expireBuffs .aura = .ok v) n₁ :=
    hexpired'.mono fun w hw v _ h => ⟨hw, h⟩
  apply ((((hfirst.symm.trans hfirst).trans htaken).trans hkept).trans hlast).mono
  rintro u₁ - v₁ - ⟨w, ⟨u₂, ⟨u₁', ⟨u, ⟨hu, hexpire⟩, -, hexpire'⟩, htakes⟩, hw⟩, hmem, hv₁⟩
  obtain rfl := Except.ok.inj (hexpire.symm.trans hexpire')
  obtain ⟨hwranged, hyields, hgoal⟩ := hunits w hmem
  have huid : w.uid = u₁.uid := by
    rw [hw, BoardUnit.keepLack_eq]
    exact htakes.restats.persists.uid
  rw [← huid, hgoal]
  rw [← huid] at htakes
  apply hyields.follows hw hwranged hexpire hu htakes _ hv₁
  intro buff hbuff
  exact hauras _ (mem_of_mem_grantedTo hbuff)

/-- Where all units have followed the course of a refresh to its end, and lack what they lacked
then, they are the same as then. -/
theorem eq_of_followed (hkept : m₂.InPlace (fun u v => v = u.keepLack l) b')
    (hunits : ∀ w ∈ b'.units, w.Ranged ∧ goal w.uid = w.vitality.toInt)
    (hdistinct : (b'.units.map BoardUnit.uid).Nodup) (hl' : b'.lacks = .ok l')
    (hfollowed : m₂.InPlace (fun u v => u.Follows (goal u.uid) [] v) n₂)
    (hkept' : n₂.InPlace (fun u v => v = u.keepLack l') n₃) :
  n₃ = b'
  := by
  apply InPlace.eq
  apply ((hkept.symm.trans hfollowed).trans hkept').mono
  rintro w hmem x - ⟨v₂, ⟨u₂, hw, hfollows⟩, rfl⟩
  obtain ⟨hwranged, hgoal⟩ := hunits w hmem
  obtain ⟨lack, hlack, hnoted⟩ := of?_lacks hdistinct hl' hmem
  have huid : w.uid = u₂.uid := by rw [hw, BoardUnit.keepLack_eq]
  rw [← huid, hgoal] at hfollows
  exact (hfollows.keepLack_eq_last hw hwranged hlack hnoted).symm

end Battle

/-! ### Refreshes -/

namespace Ruleset

variable {rules : Ruleset} {b b' : Battle} {player : UInt8} {first second : Trigger}
  (hrules : rules.IsContinuous) (hfirst : first.IsContinuous) (hsecond : second.IsContinuous)

include hrules hfirst hsecond

/-- A refresh that eliminates no unit takes the auras back, hands the grants out, and keeps
what units lacked. -/
theorem refresh_calmly (hb : b.Coherent) :
  (rules.refresh player first second).LeadsCalmly b b' ↔ ∃ l m₁ m₂, b.lacks = .ok l
    ∧ b.changeAll (fun u => u.expireBuffs .aura) = .ok m₁
    ∧ HandsOut (rules.continuousGrants m₁ player first second) m₁ m₂
    ∧ m₂.changeAll (fun u => .ok (u.keepLack l)) = .ok b' ∧ ∀ u ∈ b'.units, u.isAlive
  := by
  have hexpired : ∀ {m₁ : Battle}, b.changeAll (fun u => u.expireBuffs .aura) = .ok m₁ →
      m₁.Coherent ∧ m₁.units.length = b.units.length := by
    intro m₁ h
    exact ⟨hb.changeAll (fun _ _ => BoardUnit.expireBuffs_endures) h,
      (Battle.changeAll_units h).length_eq.symm⟩
  have hkept : ∀ {m₂ m₃ : Battle} {l : Lacks}, m₂.Coherent →
      m₂.changeAll (fun u => .ok (u.keepLack l)) = .ok m₃ →
      m₃.Coherent ∧ m₃.units.length = m₂.units.length := by
    intro m₂ m₃ l hm₂ h
    refine ⟨hm₂.changeAll ?_ h, (Battle.changeAll_units h).length_eq.symm⟩
    intro u v hv
    obtain rfl := Except.ok.inj hv
    apply BoardUnit.keepLack_endures
  constructor
  · rintro ⟨h, hlength⟩
    obtain ⟨l, m₁, m₂, m₃, hl, hexpire, hannounce, hkeep, hsweep⟩ := refresh_leads.mp h
    obtain ⟨hm₁, hlength₁⟩ := hexpired hexpire
    have hmoves := emits_moves rules.emit_moves hannounce
    have hm₂ := hm₁.moves hmoves
    have hle₂ := hm₁.length_moves hmoves
    obtain ⟨hm₃, hlength₃⟩ := hkept hm₂ hkeep
    have hle₃ := hm₃.length_moves (rules.sweep_moves hsweep)
    have hcalm : (rules.sweep none 1).LeadsCalmly m₃ b' := ⟨hsweep, by omega⟩
    obtain ⟨rfl, halive⟩ := (sweepWith_calmly hm₃ rules.emit_moves none 1).mp hcalm
    have hgrants := (emits_calmly hrules hfirst hsecond hm₁).mp ⟨hannounce, by omega⟩
    exact ⟨l, m₁, m₂, hl, hexpire, hgrants, hkeep, halive⟩
  · rintro ⟨l, m₁, m₂, hl, hexpire, hgrants, hkeep, halive⟩
    obtain ⟨hm₁, hlength₁⟩ := hexpired hexpire
    obtain ⟨hannounce, hlength₂⟩ := (emits_calmly hrules hfirst hsecond hm₁).mpr hgrants
    obtain ⟨hb', hlength'⟩ := hkept (hgrants.coherent hm₁) hkeep
    obtain ⟨hsweep, -⟩ := (sweepWith_calmly hb' rules.emit_moves none 1).mpr ⟨rfl, halive⟩
    exact ⟨refresh_leads.mpr ⟨l, m₁, m₂, b', hl, hexpire, hannounce, hkeep, hsweep⟩, by omega⟩

/-- If a second refresh, in the same way, leads anywhere, and nothing is cut off in it, then it
leads nowhere else. -/
theorem refresh_again_of_yields (hb : b.Sound)
    (h : (rules.refresh player first second).LeadsCalmly b b') {b'' : Battle}
    (hagain : (rules.refresh player first second).Leads b' b'')
    (hyields : ∀ u ∈ b'.units, u.YieldsAuras) :
  b'' = b'
  := by
  have hb' := refresh_sound hb.toCoherent h.1
  obtain ⟨l, m₁, m₂, hl, hexpire, hgrants, hkeep, -⟩ :=
    (refresh_calmly hrules hfirst hsecond hb.toCoherent).mp h
  obtain ⟨l', n₁, n₂, n₃, hl', hexpire', hannounce', hkeep', hsweep'⟩ := refresh_leads.mp hagain
  have hm₁ := hb.toCoherent.changeAll (fun _ _ => BoardUnit.expireBuffs_endures) hexpire
  have hn₁ := hb'.toCoherent.changeAll (fun _ _ => BoardUnit.expireBuffs_endures) hexpire'
  let goal (uid : Uid) : Int := ((b'.find? uid).map fun u => u.vitality.toInt).getD 1
  have hgoal : ∀ uid, 0 < goal uid := by
    intro uid
    cases hfind : b'.find? uid with
    | none => simp [goal, hfind]
    | some w =>
      have halive := BoardUnit.isAlive_iff.mp (hb'.alive w (Battle.mem_of_find? hfind))
      simpa [goal, hfind] using halive
  have hunits : ∀ w ∈ b'.units, w.Ranged ∧ w.YieldsAuras ∧ goal w.uid = w.vitality.toInt := by
    intro w hw
    use hb'.ranged hw, hyields w hw
    simp [goal, Battle.find?_of_mem hb'.distinct hw]
  have hkept := Battle.changeAll_ok hkeep
  have hfollows := Battle.follows_of_yields (fun u hu => hb.ranged hu)
    (Battle.changeAll_eq_ok.mp hexpire) (hgrants.inPlace hm₁) (fun _ => continuousGrants_aura)
    hkept hunits (Battle.changeAll_eq_ok.mp hexpire')
  have hsame : m₁.InPlace BoardUnit.Restats n₁ := by
    apply hfollows.mono
    intro u _ v _ h
    rw [BoardUnit.Restats, h.eq]
  obtain ⟨n₂', hgrants', hfollowed⟩ :=
    hgrants.follow (fun _ => continuousGrants_aura) hm₁ hn₁ hgoal hfollows
  rw [← continuousGrants_restats hsame] at hgrants'
  obtain rfl := ((emits_calmly hrules hfirst hsecond hn₁).mpr hgrants').1.unique hannounce'
  obtain rfl := Battle.eq_of_followed hkept (fun w hw => ⟨(hunits w hw).1, (hunits w hw).2.2⟩)
    hb'.distinct hl' hfollowed (Battle.changeAll_ok hkeep')
  have hdone := (sweepWith_calmly hb'.toCoherent rules.emit_moves none 1).mpr ⟨rfl, hb'.alive⟩
  exact hsweep'.unique hdone.1

/-- If a refresh leads a battle back to itself, then nothing was cut off in it. -/
theorem yieldsAuras_of_refresh (hb : b.Sound)
    (h : (rules.refresh player first second).Leads b b) :
  ∀ u ∈ b.units, u.YieldsAuras
  := by
  obtain ⟨l, m₁, m₂, -, hexpire, hgrants, hkeep, -⟩ :=
    (refresh_calmly hrules hfirst hsecond hb.toCoherent).mp ⟨h, rfl⟩
  have hm₁ := hb.toCoherent.changeAll (fun _ _ => BoardUnit.expireBuffs_endures) hexpire
  have hround := ((Battle.changeAll_eq_ok.mp hexpire).trans (hgrants.inPlace hm₁)).trans
    (Battle.changeAll_ok hkeep)
  intro w hw
  obtain ⟨v₂, ⟨v₁, hv₁, htakes⟩, hkept⟩ := List.forall₂_same.mp hround.units w hw
  apply BoardUnit.yieldsAuras_of_same hkept (hb.ranged hw) hv₁ htakes
  intro buff hbuff
  exact continuousGrants_aura (mem_of_mem_grantedTo hbuff)

end Ruleset

/-- Continuous effects are worked out anew and not added up.  After a refresh that has
eliminated no unit, another one in the same way has a result unless a number overflows, and
this is the same battle if and only if no maximum of vitality is cut off at zero while the
auras are taken back. -/
theorem refresh_again {rules : Ruleset} (hrules : rules.IsContinuous) {b b' : Battle}
    (hb : b.corruption? = none) {player : UInt8} {first second : Trigger}
    (hfirst : first.IsContinuous) (hsecond : second.IsContinuous)
    (h : (rules.refresh player first second).LeadsCalmly b b') :
  FailsOnly Fault.IsOverflow (rules.refresh player first second b')
  ∧ ∀ b'', (rules.refresh player first second).Leads b' b'' →
    (b'' = b' ↔ ∀ u ∈ b'.units, u.YieldsAuras)
  := by
  have hsound := Battle.corruption?_eq_none_iff.mp hb
  have hb' := Ruleset.refresh_sound hsound.toCoherent h.1
  use Ruleset.refresh_failsOnly hb'.toCoherent player first second
  intro b'' hagain
  constructor
  · rintro rfl
    exact Ruleset.yieldsAuras_of_refresh hrules hfirst hsecond hb' hagain
  · exact Ruleset.refresh_again_of_yields hrules hfirst hsecond hsound h hagain

/-- A unit card with a rule block for each of the two continuous effects, which changes the
vitality of the unit itself. -/
def Card.swaying (ruleMod aura : Int32) : Card :=
  { id := "swaying"
    name := "Swaying"
    stats := { vitality := 2 }
    abilities := [{
      kind := .passive
      rules := [
        { trigger := .ruleMod, script := [.modifyStat .self .vitality ruleMod .aura] },
        { trigger := .aura, script := [.modifyStat .self .vitality aura .aura] }] }] }

/-- A battle with a single unit. -/
def Battle.vigil (card : Card) : Battle :=
  { Battle.start 1 with
    side0.board := ⟨[some (.ofCard ⟨1⟩ 0 ⟨.front, 0⟩ card), none, none, none, none, none], rfl⟩
    uids := ⟨2⟩ }

/-- The rules of a battle with the cards of one kind only. -/
def Ruleset.ofCard (card : Card) : Ruleset :=
  { catalog := ⟨[card], by simp⟩ }

/-- Where vitality rises by more than it was and falls again, its maximum is cut off when the
rise is taken back: the next refresh leaves the unit with more. -/
theorem refresh_again_more :
  let rules := Ruleset.ofCard (.swaying 5 (-3))
  rules.IsContinuous ∧ (Battle.vigil (.swaying 5 (-3))).corruption? = none
    ∧ ∃ b' b'', (rules.refresh 0 .ruleMod .aura).LeadsCalmly (.vigil (.swaying 5 (-3))) b'
      ∧ (rules.refresh 0 .ruleMod .aura).Leads b' b''
      ∧ (b'.find? ⟨1⟩).map BoardUnit.vitality = some 4
      ∧ (b''.find? ⟨1⟩).map BoardUnit.vitality = some 5
  := by
  intro rules
  refine ⟨by decide, by decide, ?_⟩
  let vitalityOf (b : Battle) := (b.find? ⟨1⟩).map BoardUnit.vitality
  obtain ⟨b', hb', hfirst⟩ := exists_leads (c := rules.refresh 0 .ruleMod .aura)
    (b := .vigil (.swaying 5 (-3))) (p := fun b' => b'.units.length = 1 && vitalityOf b' = some 4
      && (rules.refresh 0 .ruleMod .aura b').toOption.any fun result =>
        vitalityOf result.1 = some 5) (by decide +kernel)
  simp only [Bool.and_eq_true, decide_eq_true_eq] at hfirst
  obtain ⟨⟨hlength, hvitality⟩, hsecond⟩ := hfirst
  obtain ⟨b'', hb'', hmore⟩ := exists_leads (p := fun b'' => vitalityOf b'' = some 5) hsecond
  exact ⟨b', b'', ⟨hb', hlength⟩, hb'', hvitality, of_decide_eq_true hmore⟩

/-- A unit whose vitality sways less is left as it is by the second refresh. -/
theorem refresh_again_vigil :
  let rules := Ruleset.ofCard (.swaying 1 (-2))
  ∃ b', (rules.refresh 0 .ruleMod .aura).LeadsCalmly (.vigil (.swaying 1 (-2))) b'
    ∧ ∀ b'', (rules.refresh 0 .ruleMod .aura).Leads b' b'' →
      (b'' = b' ↔ ∀ u ∈ b'.units, u.YieldsAuras)
  := by
  intro rules
  obtain ⟨b', hb', hlength⟩ := exists_leads (c := rules.refresh 0 .ruleMod .aura)
    (b := .vigil (.swaying 1 (-2))) (p := fun b' => b'.units.length = 1) (by decide +kernel)
  have hcalmly : (rules.refresh 0 .ruleMod .aura).LeadsCalmly (.vigil (.swaying 1 (-2))) b' :=
    ⟨hb', of_decide_eq_true hlength⟩
  exact ⟨b', hcalmly,
    (refresh_again (by decide) (by decide) (.inl rfl) (.inr rfl) hcalmly).2⟩

end CardBattle
