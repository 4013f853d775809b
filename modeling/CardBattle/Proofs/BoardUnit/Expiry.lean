import CardBattle.Proofs.BoardUnit.Headroom
import CardBattle.Proofs.BoardUnit.Overflow
import Mathlib.Data.List.Infix

/-!
# Vitality for the rest of a cycle

In the course of a cycle a unit has its vitality changed until the end of the cycle, and it is
damaged, and it stays alive (`BoardUnit.Survives`).  Then vitality and its maximum have changed
by the sum of the changes, but for the damage (`Survives.endured`).  At the end of the cycle the
changes are taken back, the oldest first.  If that never leads the maximum below zero, it comes
back to what it was, and the gains that the damage has not used up are kept as far as the unit
lacked vitality before (`endOfCycle_keeps_gains`).
-/

namespace CardBattle

/-- What a unit undergoes in a cycle: a change of its vitality until the end of the cycle, or
damage. -/
inductive Ordeal
  | change (delta : Int32)
  | damage (amount : Int32)

namespace Ordeal

/-- The unit after an ordeal. -/
def befall (u : BoardUnit) : Ordeal → Except Fault BoardUnit
  | change delta => u.addBuff .vitality delta .endOfCycle
  | damage amount => u.takeDamage amount

/-- The buffs that an ordeal leaves with the unit. -/
def buffs : Ordeal → List Buff
  | change delta => [⟨.vitality, delta, .endOfCycle⟩]
  | damage _ => []

/-- The damage that an ordeal does. -/
def harm : Ordeal → Int
  | change _ => 0
  | damage amount => max 0 amount.toInt

/-- The buffs that ordeals leave with the unit, the oldest first. -/
def allBuffs (ordeals : List Ordeal) : List Buff :=
  ordeals.flatMap buffs

/-- The damage that ordeals do together. -/
def allHarm : List Ordeal → Int
  | [] => 0
  | ordeal :: rest => ordeal.harm + allHarm rest

/-- All that ordeals leave with a unit are changes of vitality until the end of the cycle. -/
theorem mem_allBuffs {ordeals : List Ordeal} {buff : Buff} (h : buff ∈ allBuffs ordeals) :
  buff.stat = .vitality ∧ buff.expiry = .endOfCycle
  := by
  obtain ⟨ordeal, -, h⟩ := List.mem_flatMap.mp h
  cases ordeal with
  | change delta =>
    obtain rfl := List.mem_singleton.mp h
    exact ⟨rfl, rfl⟩
  | damage amount => cases h

end Ordeal

namespace BoardUnit

open Ordeal (allBuffs allHarm)

/-- The unit undergoes ordeals one after another, and it is alive after each. -/
inductive Survives : List Ordeal → BoardUnit → BoardUnit → Prop
  | nil (u : BoardUnit) : Survives [] u u
  | cons {ordeal : Ordeal} {ordeals : List Ordeal} {u v w : BoardUnit}
      (h : ordeal.befall u = .ok v) (halive : v.isAlive) (hrest : Survives ordeals v w) :
      Survives (ordeal :: ordeals) u w

/-- What a unit has become by ordeals that have cut nothing off. -/
structure Endured (ordeals : List Ordeal) (u v : BoardUnit) : Prop where
  top : v.vitalityMax.toInt = u.vitalityMax.toInt + Buff.total .vitality (allBuffs ordeals)
  vitality : v.vitality.toInt
    = u.vitality.toInt + Buff.total .vitality (allBuffs ordeals) - allHarm ordeals
  noted : v.buffs = u.buffs ++ allBuffs ordeals
  ranged : v.Ranged

variable {u v w : BoardUnit} {ordeal : Ordeal} {ordeals : List Ordeal} {buff : Buff}
  {buffs : List Buff}

/-! ### The course of a cycle -/

/-- Nothing is cut off by an ordeal after which the unit is alive. -/
theorem endured_of_befall (hu : u.Ranged) (h : ordeal.befall u = .ok v) (halive : v.isAlive) :
  Endured [ordeal] u v
  := by
  cases ordeal with
  | change delta =>
    let buff : Buff := ⟨.vitality, delta, .endOfCycle⟩
    have h : u.addBuff buff.stat buff.delta buff.expiry = .ok v := h
    obtain ⟨w, hw, rfl⟩ := addBuff_ok h
    obtain ⟨hstat, htop, hranged⟩ := modifyStat_exact hu hw fun _ => halive
    have hbuffs := modifyStat_buffs hw
    have hvitality : w.vitality.toInt = u.vitality.toInt + buff.change .vitality :=
      hstat .vitality
    have htotal : Buff.total .vitality (allBuffs [.change delta]) = buff.change .vitality :=
      Int.add_zero _
    have hharm : allHarm [.change delta] = 0 := rfl
    constructor
    · rw [htotal]
      exact htop
    · rw [htotal, hharm, Int.sub_zero]
      exact hvitality
    · dsimp only
      rw [if_neg (by simp [buff]), hbuffs]
      rfl
    · exact ⟨hranged.low, hranged.high⟩
  | damage amount =>
    obtain ⟨heq, hvitality⟩ := takeDamage_ok h
    obtain ⟨low, high⟩ := hu
    rw [isAlive_iff] at halive
    have htop : v.vitalityMax = u.vitalityMax := by rw [heq]
    have htotal : Buff.total .vitality (allBuffs [.damage amount]) = 0 := rfl
    have hharm : allHarm [.damage amount] = max 0 amount.toInt := Int.add_zero _
    constructor
    · rw [htotal, htop, Int.add_zero]
    · rw [htotal, hharm]
      omega
    · rw [heq]
      exact (List.append_nil _).symm
    · exact ⟨by omega, by rw [htop]; omega⟩

theorem Endured.cons (h : Endured [ordeal] u v) (h' : Endured ordeals v w) :
  Endured (ordeal :: ordeals) u w
  := by
  have hbuffs : allBuffs (ordeal :: ordeals) = allBuffs [ordeal] ++ allBuffs ordeals := by
    simp [allBuffs]
  have hharm : allHarm (ordeal :: ordeals) = allHarm [ordeal] + allHarm ordeals := by
    simp [allHarm]
  constructor
  · rw [h'.top, h.top, hbuffs, Buff.total_append, Int.add_assoc]
  · rw [h'.vitality, h.vitality, hbuffs, hharm, Buff.total_append]
    omega
  · rw [h'.noted, h.noted, hbuffs, List.append_assoc]
  · exact h'.ranged

/-- Nothing is cut off by ordeals that the unit survives one after another. -/
theorem Survives.endured (h : Survives ordeals u v) (hu : u.Ranged) :
  Endured ordeals u v
  := by
  induction h with
  | nil u => exact ⟨(Int.add_zero _).symm, by simp [allBuffs, allHarm], by simp [allBuffs], hu⟩
  | cons h halive _ ih =>
    have hfirst := endured_of_befall hu h halive
    exact hfirst.cons (ih hfirst.ranged)

/-! ### The end of a cycle -/

/-- The maximum of vitality falls by all that buffs gave, if what is left of it when the first
of them have been taken back is never below zero. -/
theorem undoBuffs_top (hu : u.Ranged) (h : buffs.foldlM undoBuff u = .ok v)
    (hwhole : ∀ rest, rest <:+ buffs →
      0 ≤ u.vitalityMax.toInt - Buff.total .vitality buffs + Buff.total .vitality rest) :
  v.vitalityMax.toInt = u.vitalityMax.toInt - Buff.total .vitality buffs
  := by
  induction buffs generalizing u with
  | nil =>
    obtain rfl := pure_eq_ok.mp h
    rw [Buff.total_nil, Int.sub_zero]
  | cons buff rest ih =>
    rw [List.foldlM_cons] at h
    obtain ⟨m, hm, h⟩ := bind_eq_ok.mp h
    obtain ⟨hranged, htop, -⟩ := undoBuff_vitality hu hm
    have hnext := hwhole rest (List.suffix_cons buff rest)
    rw [Buff.total_cons] at hnext ⊢
    rw [ih hranged h]
    · omega
    · intro last hlast
      have hleft := hwhole last (hlast.trans (List.suffix_cons buff rest))
      rw [Buff.total_cons] at hleft
      omega

/-- A change of vitality can be taken back where the maximum that is left is a word. -/
theorem undoBuff_exists (hu : u.Ranged) (hbuff : buff.stat = .vitality)
    (hlow : 0 ≤ u.vitalityMax.toInt - buff.delta.toInt)
    (hhigh : u.vitalityMax.toInt - buff.delta.toInt < 0x80000000) :
  ∃ v, u.undoBuff buff = .ok v
  := by
  obtain ⟨low, high⟩ := hu
  have hdelta := buff.delta.toInt_lt
  obtain ⟨top, htop, -⟩ := Word.exact_exists .subtract
    (n := u.vitalityMax.toInt - buff.delta.toInt) (by omega) hhigh
  obtain ⟨vitality, hvitality, -⟩ := Word.exact_exists .subtract
    (n := u.vitality.toInt - buff.delta.toInt) (by omega) (by omega)
  exact undoBuff_vitality_exists hbuff htop hvitality

/-- Changes of vitality can be taken back where the maximum that is left after each is a
word. -/
theorem undoBuffs_exists (hu : u.Ranged) (hbuffs : ∀ buff ∈ buffs, buff.stat = .vitality)
    (hfits : ∀ rest, rest <:+ buffs →
      0 ≤ u.vitalityMax.toInt - Buff.total .vitality buffs + Buff.total .vitality rest
        ∧ u.vitalityMax.toInt - Buff.total .vitality buffs + Buff.total .vitality rest
          < 0x80000000) :
  ∃ v, buffs.foldlM undoBuff u = .ok v
  := by
  induction buffs generalizing u with
  | nil => exact ⟨u, rfl⟩
  | cons buff rest ih =>
    have hstat := hbuffs buff List.mem_cons_self
    have hchange : buff.change .vitality = buff.delta.toInt := by rw [Buff.change, if_pos hstat]
    obtain ⟨hlow, hhigh⟩ := hfits rest (List.suffix_cons buff rest)
    rw [Buff.total_cons] at hlow hhigh
    obtain ⟨m, hm⟩ := undoBuff_exists hu hstat (by omega) (by omega)
    obtain ⟨hranged, htop, -⟩ := undoBuff_vitality hu hm
    have hrest : ∃ v, rest.foldlM undoBuff m = .ok v := by
      apply ih hranged fun b hb => hbuffs b (List.mem_cons_of_mem _ hb)
      intro last hlast
      have hleft := hfits last (hlast.trans (List.suffix_cons buff rest))
      rw [Buff.total_cons] at hleft
      omega
    obtain ⟨v, hv⟩ := hrest
    use v
    rw [List.foldlM_cons]
    exact bind_eq_ok.mpr ⟨m, hm, hv⟩

/-- The buffs of ordeals are all that expires with the cycle, if nothing was to expire with it
before. -/
theorem Endured.expiring (h : Endured ordeals u v) (hnone : u.expiring .endOfCycle = []) :
  v.expiring .endOfCycle = allBuffs ordeals
  := by
  have hall : (allBuffs ordeals).filter (fun buff => buff.expiry = .endOfCycle)
      = allBuffs ordeals := by
    apply List.filter_eq_self.mpr
    intro buff hbuff
    simpa using (Ordeal.mem_allBuffs hbuff).2
  rw [BoardUnit.expiring] at *
  rw [h.noted, List.filter_append, hnone, List.nil_append, hall]

end BoardUnit

open Ordeal (allBuffs allHarm)

/-- At the end of a cycle whose changes of vitality are taken back without leading the maximum
below zero, the maximum is what it was.  Of the vitality there is what was there before, with
all gains and without the damage, as far as the maximum allows it: so a unit is left with more
than it had if it lacked vitality before and has gained more than the damage has taken.  The
end of the cycle fails only by overflow, and not while the maximum is a word on the way. -/
theorem endOfCycle_keeps_gains {u v : BoardUnit} {ordeals : List Ordeal}
    (hnone : u.expiring .endOfCycle = []) (halive : u.isAlive)
    (hmost : u.vitality ≤ u.vitalityMax) (h : BoardUnit.Survives ordeals u v)
    (hwhole : ∀ rest, rest <:+ allBuffs ordeals →
      0 ≤ u.vitalityMax.toInt + Buff.total .vitality rest) :
  FailsOnly Fault.IsOverflow (v.expireBuffs .endOfCycle)
  ∧ ((∀ rest, rest <:+ allBuffs ordeals →
      u.vitalityMax.toInt + Buff.total .vitality rest < 0x80000000) →
    ∃ w, v.expireBuffs .endOfCycle = .ok w)
  ∧ ∀ w, v.expireBuffs .endOfCycle = .ok w → w.vitalityMax = u.vitalityMax
    ∧ w.vitality.toInt = min u.vitalityMax.toInt
      (u.vitality.toInt + Buff.gains (allBuffs ordeals) - allHarm ordeals)
    ∧ (w.vitality ≤ u.vitality
      ↔ u.vitality = u.vitalityMax ∨ Buff.gains (allBuffs ordeals) ≤ allHarm ordeals)
  := by
  have hranged := BoardUnit.Bounded.ranged (fun _ => hmost) halive
  have hendured := h.endured hranged
  have hexpiring := hendured.expiring hnone
  have htop := hendured.top
  have hvitality := hendured.vitality
  have hchanged : ∀ kept : List Buff, { v with buffs := kept }.Ranged :=
    fun _ => ⟨hendured.ranged.low, hendured.ranged.high⟩
  refine ⟨v.expireBuffs_failsOnly _, ?_, ?_⟩
  · intro hfits
    rw [BoardUnit.expireBuffs, hexpiring]
    apply BoardUnit.undoBuffs_exists (hchanged _) fun buff hbuff => (Ordeal.mem_allBuffs hbuff).1
    intro rest hrest
    have hleast := hwhole rest hrest
    have hmost := hfits rest hrest
    dsimp only
    omega
  · intro w hw
    rw [BoardUnit.expireBuffs, hexpiring] at hw
    have hback := BoardUnit.undoBuffs_top (hchanged _) hw (by
      intro rest hrest
      have hleast := hwhole rest hrest
      dsimp only
      omega)
    obtain ⟨-, -, hlack⟩ := BoardUnit.undoBuffs_vitality (hchanged _) hw
    have hlack := hlack hback
    dsimp only at hback hlack
    have htotal := Buff.total_vitality (allBuffs ordeals)
    have hleft : w.vitality.toInt = min u.vitalityMax.toInt
        (u.vitality.toInt + Buff.gains (allBuffs ordeals) - allHarm ordeals) := by omega
    refine ⟨Int32.toInt_inj.mp (by omega), hleft, ?_⟩
    have high := hranged.high
    rw [Int32.le_iff_toInt_le, ← Int32.toInt_inj, hleft]
    omega

/-- A scout with some vitality. -/
def BoardUnit.scout (vitality vitalityMax : Int32) : BoardUnit :=
  { uid := ⟨1⟩, cardId := "scout", owner := 0, cell := ⟨.front, 0⟩, vitality, vitalityMax,
    impact := 1, defence := 0, velocity := 2 }

/-- A scout with 3 of 5 that gains 4, loses 2 by damage and 1 for the cycle, and 1 more by
damage, is left with 4 of 5. -/
theorem endOfCycle_keeps_gains_scout :
  let u := BoardUnit.scout 3 5
  let ordeals : List Ordeal := [.change 4, .damage 2, .change (-1), .damage 1]
  u.expiring .endOfCycle = [] ∧ u.isAlive ∧ u.vitality ≤ u.vitalityMax
    ∧ ∃ v w, BoardUnit.Survives ordeals u v ∧ v.expireBuffs .endOfCycle = .ok w
      ∧ w.vitalityMax = u.vitalityMax ∧ w.vitality.toInt = 4
  := by
  intro u ordeals
  let gain : Buff := ⟨.vitality, 4, .endOfCycle⟩
  let loss : Buff := ⟨.vitality, -1, .endOfCycle⟩
  let left (vitality vitalityMax : Int32) (buffs : List Buff) : BoardUnit :=
    { BoardUnit.scout vitality vitalityMax with buffs }
  have hv : BoardUnit.Survives ordeals u (left 3 8 [gain, loss]) := by
    apply BoardUnit.Survives.cons (v := left 7 9 [gain]) (by decide +kernel) rfl
    apply BoardUnit.Survives.cons (v := left 5 9 [gain]) (by decide +kernel) rfl
    apply BoardUnit.Survives.cons (v := left 4 8 [gain, loss]) (by decide +kernel) rfl
    apply BoardUnit.Survives.cons (v := left 3 8 [gain, loss]) (by decide +kernel) rfl
    exact .nil _
  have hrange : ∀ rest ∈ (allBuffs ordeals).tails,
      0 ≤ u.vitalityMax.toInt + Buff.total .vitality rest
        ∧ u.vitalityMax.toInt + Buff.total .vitality rest < 0x80000000 := by decide
  obtain ⟨-, hexpires, hleft⟩ := endOfCycle_keeps_gains (by rfl) (by decide) (by decide) hv
    fun rest hrest => (hrange rest ((List.mem_tails _ _).mpr hrest)).1
  obtain ⟨w, hw⟩ := hexpires fun rest hrest => (hrange rest ((List.mem_tails _ _).mpr hrest)).2
  obtain ⟨htop, hvitality, -⟩ := hleft w hw
  exact ⟨rfl, by decide, by decide, _, w, hv, hw, htop, hvitality⟩

/-- A scout with 1 of 10 that was given 5 for the rest of the cycle is left with 6.  For one with
2 of 2 that was given 5 and has lost 3, the maximum would fall below zero when the gain is taken
back: it is cut off there, and the loss that is taken back after that raises it to 3. -/
theorem endOfCycle_leaves_more :
  (∃ u v w, u.buffs = [] ∧ u.vitality = 1 ∧ u.vitalityMax = 10
    ∧ BoardUnit.Survives [.change 5] u v ∧ v.expireBuffs .endOfCycle = .ok w
    ∧ w.vitality = 6)
  ∧ ∃ u v w, u.buffs = [] ∧ u.vitality = 2 ∧ u.vitalityMax = 2
    ∧ BoardUnit.Survives [.change 5, .change (-3)] u v ∧ v.expireBuffs .endOfCycle = .ok w
    ∧ w.vitalityMax = 3
  := by
  constructor
  · refine ⟨.scout 1 10, _, _, rfl, rfl, rfl, .cons rfl (by decide) (.nil _), rfl, ?_⟩
    decide
  · let gain : Buff := ⟨.vitality, 5, .endOfCycle⟩
    let loss : Buff := ⟨.vitality, -3, .endOfCycle⟩
    have hcourse : BoardUnit.Survives [.change 5, .change (-3)] (.scout 2 2)
        { BoardUnit.scout 4 4 with buffs := [gain, loss] } := by
      apply BoardUnit.Survives.cons (v := { BoardUnit.scout 7 7 with buffs := [gain] })
        (by decide +kernel) rfl
      apply BoardUnit.Survives.cons (v := { BoardUnit.scout 4 4 with buffs := [gain, loss] })
        (by decide +kernel) rfl
      exact .nil _
    exact ⟨_, _, .scout 3 3, rfl, rfl, rfl, hcourse, by decide +kernel, rfl⟩

end CardBattle
