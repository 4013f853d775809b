import CardBattle.Proofs.BoardUnit.Auras
import CardBattle.Proofs.BoardUnit.Treatment
import CardBattle.Proofs.Cascade.Refresh

/-!
# Headroom of statistics

A statistic has room for changes as long as its value, what its buffs have changed and the
changes to come add up to a word, whatever their signs (`BoardUnit.HasRoom`).  A change takes
its size of the room, and a buff takes it twice, for it is taken back some day.  Damage,
healing and the end of buffs leave the room as it is.  Where there is room, none of them
overflows.
-/

namespace CardBattle

/-- A value in the range of words is that of a word. -/
theorem Word.exact_exists (operation : Operation) {n : Int} (hlow : -0x80000000 ≤ n)
    (hhigh : n < 0x80000000) :
  ∃ w, exact operation n = .ok w ∧ w.toInt = n
  := by
  have h : exact operation n = .ok (Int32.ofInt n) := if_pos ⟨hlow, hhigh⟩
  exact ⟨Int32.ofInt n, h, exact_eq_ok_iff.mp h⟩

namespace Buff

/-- How much buffs have changed a statistic, up or down. -/
def burden (stat : Stat) : List Buff → Nat
  | [] => 0
  | buff :: rest => (buff.change stat).natAbs + burden stat rest

variable {buff : Buff} {buffs buffs' : List Buff} {stat : Stat}

@[simp]
theorem burden_nil (stat : Stat) :
  burden stat [] = 0
  := rfl

@[simp]
theorem burden_cons (stat : Stat) (buff : Buff) (buffs : List Buff) :
  burden stat (buff :: buffs) = (buff.change stat).natAbs + burden stat buffs
  := rfl

/-- The order of buffs makes no difference. -/
theorem burden_perm (h : buffs.Perm buffs') (stat : Stat) :
  burden stat buffs = burden stat buffs'
  := by
  induction h with
  | nil => rfl
  | cons buff _ ih => rw [burden_cons, burden_cons, ih]
  | swap buff buff' rest =>
    simp only [burden_cons]
    omega
  | trans _ _ ih ih' => rw [ih, ih']

/-- A buff changes no statistic by more than its delta. -/
theorem natAbs_change_le (stat : Stat) (buff : Buff) :
  (buff.change stat).natAbs ≤ buff.delta.toInt.natAbs
  := by
  rw [change]
  split <;> omega

end Buff

namespace BoardUnit

/-- How far a statistic can be from zero; for vitality this is the maximum. -/
def extent (u : BoardUnit) : Stat → Nat
  | .vitality => u.vitalityMax.toInt.natAbs
  | stat => (u.stat stat).toInt.natAbs

/-- The vitality is in its range, and every statistic can be changed by `room` as well as by
the buffs that are owed. -/
structure Bears (owed : List Buff) (room : Nat) (u : BoardUnit) : Prop where
  ranged : u.Ranged
  extent : ∀ stat, u.extent stat + Buff.burden stat owed + room ≤ 0x7fffffff

/-- The vitality is in its range, and every statistic can be changed by `room` even if the
buffs of the unit are taken back. -/
def HasRoom (room : Nat) (u : BoardUnit) : Prop :=
  u.Bears u.buffs room

variable {owed owed' : List Buff} {room room' : Nat} {u v : BoardUnit} {buff : Buff}

theorem extent_other {stat : Stat} (hstat : stat ≠ .vitality) (u : BoardUnit) :
  u.extent stat = (u.stat stat).toInt.natAbs
  := by
  cases stat with
  | vitality => exact absurd rfl hstat
  | _ => rfl

namespace Bears

theorem mono (hu : u.Bears owed room) (h : room' ≤ room) :
  u.Bears owed room'
  := by
  use hu.ranged
  intro stat
  have hextent := hu.extent stat
  omega

theorem perm (hu : u.Bears owed room) (h : owed.Perm owed') :
  u.Bears owed' room
  := by
  use hu.ranged
  intro stat
  rw [← Buff.burden_perm h]
  apply hu.extent

/-- Room for a change can be kept for a buff. -/
theorem owe (hu : u.Bears owed (room + buff.delta.toInt.natAbs)) :
  u.Bears (buff :: owed) room
  := by
  use hu.ranged
  intro stat
  have hextent := hu.extent stat
  have hchange := Buff.natAbs_change_le stat buff
  rw [Buff.burden_cons]
  omega

/-- A buff is no longer owed when no statistic has changed by more than it can change. -/
theorem settle (hu : u.Bears (buff :: owed) room) (hv : v.Ranged)
    (hextent : ∀ stat, v.extent stat ≤ u.extent stat + (buff.change stat).natAbs) :
  v.Bears owed room
  := by
  use hv
  intro stat
  have hbefore := hu.extent stat
  have hafter := hextent stat
  rw [Buff.burden_cons] at hbefore
  omega

/-- There is room for the delta of a buff that is owed. -/
theorem extent_add_le (hu : u.Bears (buff :: owed) room) :
  u.extent buff.stat + buff.delta.toInt.natAbs ≤ 0x7fffffff
  := by
  have hextent := hu.extent buff.stat
  rw [Buff.burden_cons, Buff.change, if_pos rfl] at hextent
  omega

theorem forgive (hu : u.Bears (buff :: owed) room) :
  u.Bears owed room
  := by
  apply hu.settle hu.ranged
  intro stat
  omega

/-- Only statistics matter. -/
theorem congr (hu : u.Bears owed room) (hranged : v.Ranged)
    (hextent : ∀ stat, v.extent stat = u.extent stat) :
  v.Bears owed room
  := by
  use hranged
  intro stat
  rw [hextent stat]
  apply hu.extent

end Bears

/-! ### Changes of statistics -/

/-- A statistic other than vitality can be changed where the sum is a word. -/
theorem modifyStat_other_exists {stat : Stat} {delta w : Int32} (hstat : stat ≠ .vitality)
    (h : Word.add (u.stat stat) delta = .ok w) :
  ∃ v, u.modifyStat delta stat = .ok v
  := by
  cases stat with
  | vitality => exact absurd rfl hstat
  | _ => exact ⟨_, bind_eq_ok.mpr ⟨w, h, rfl⟩⟩

/-- Where there is room for a change of vitality, it does not overflow. -/
theorem Bears.modifyVitality (hu : u.Bears (buff :: owed) room) (hstat : buff.stat = .vitality)
    {delta : Int32} (hdelta : delta.toInt.natAbs = buff.delta.toInt.natAbs) :
  ∃ v, u.modifyStat delta .vitality = .ok v ∧ v.Bears owed room
  := by
  have low := hu.ranged.low
  have high := hu.ranged.high
  have hextent := hu.extent_add_le
  rw [hstat, BoardUnit.extent] at hextent
  obtain ⟨top, htop, -⟩ := Word.exact_exists .add (n := u.vitalityMax.toInt + delta.toInt)
    (by omega) (by omega)
  obtain ⟨vitality, hvitality, -⟩ := Word.exact_exists .add
    (n := u.vitality.toInt + delta.toInt) (by omega) (by omega)
  obtain ⟨v, hv⟩ := u.withVitality_exists vitality top
  have hv : u.modifyStat delta .vitality = .ok v :=
    bind_eq_ok.mpr ⟨top, htop, bind_eq_ok.mpr ⟨vitality, hvitality, hv⟩⟩
  obtain ⟨-, htop, hvitality⟩ := modifyStat_vitality_ok hv
  use v, hv
  apply hu.settle ⟨by omega, by omega⟩
  intro stat
  by_cases hother : stat = .vitality
  · subst hother
    rw [Buff.change, if_pos hstat, BoardUnit.extent, BoardUnit.extent]
    omega
  · rw [extent_other hother, extent_other hother, modifyStat_vitality_stat hother hv]
    omega

/-- Where there is room for a change of another statistic, it does not overflow. -/
theorem Bears.modifyOther (hu : u.Bears (buff :: owed) room) (hstat : buff.stat ≠ .vitality)
    {delta : Int32} (hdelta : delta.toInt.natAbs = buff.delta.toInt.natAbs) :
  ∃ v, u.modifyStat delta buff.stat = .ok v ∧ v.Bears owed room
  := by
  have hextent := hu.extent_add_le
  rw [extent_other hstat] at hextent
  obtain ⟨w, hw, -⟩ := Word.exact_exists .add (n := (u.stat buff.stat).toInt + delta.toInt)
    (by omega) (by omega)
  obtain ⟨v, hv⟩ := modifyStat_other_exists hstat hw
  have hframe := modifyStat_other_ok hstat hv
  use v, hv
  apply hu.settle
  · rw [hframe]
    exact ⟨hu.ranged.low, hu.ranged.high⟩
  · intro stat
    by_cases hother : stat = .vitality
    · subst hother
      have htop : v.vitalityMax = u.vitalityMax := by rw [hframe]
      rw [BoardUnit.extent, BoardUnit.extent, htop]
      omega
    · rw [extent_other hother, extent_other hother, modifyStat_other_stat hstat hv, Buff.change]
      split <;> omega

theorem Bears.modifyStat (hu : u.Bears (buff :: owed) room) {delta : Int32}
    (hdelta : delta.toInt.natAbs = buff.delta.toInt.natAbs) :
  ∃ v, u.modifyStat delta buff.stat = .ok v ∧ v.Bears owed room
  := by
  by_cases hstat : buff.stat = .vitality
  · rw [hstat]
    apply hu.modifyVitality hstat hdelta
  · apply hu.modifyOther hstat hdelta

theorem HasRoom.mono (hu : u.HasRoom room) (h : room' ≤ room) :
  u.HasRoom room'
  := Bears.mono hu h

/-- A buff takes its size of the room twice. -/
theorem HasRoom.addBuff {stat : Stat} {delta : Int32} (expiry : Duration)
    (hu : u.HasRoom (room + 2 * delta.toInt.natAbs)) :
  ∃ v, u.addBuff stat delta expiry = .ok v ∧ v.HasRoom room
  := by
  let buff : Buff := ⟨stat, delta, expiry⟩
  have howed : u.Bears (buff :: buff :: u.buffs) room := by
    apply Bears.owe
    apply Bears.owe
    apply hu.mono
    change room + delta.toInt.natAbs + delta.toInt.natAbs ≤ _
    omega
  obtain ⟨w, hw, hbears⟩ := howed.modifyStat rfl
  have hbuffs := modifyStat_buffs hw
  cases expiry with
  | permanent =>
    refine ⟨w, bind_eq_ok.mpr ⟨w, hw, rfl⟩, ?_⟩
    rw [HasRoom, hbuffs]
    apply hbears.forgive
  | _ =>
    refine ⟨_, bind_eq_ok.mpr ⟨w, hw, rfl⟩, ?_⟩
    rw [HasRoom, hbuffs]
    apply (hbears.perm (List.perm_append_singleton _ _).symm).congr
    · exact ⟨hbears.ranged.low, hbears.ranged.high⟩
    · intro stat
      cases stat <;> rfl

/-! ### Buffs that end -/

/-- A buff of vitality can be taken back where the differences are words. -/
theorem undoBuff_vitality_exists (hstat : buff.stat = .vitality) {top vitality : Int32}
    (htop : Word.subtract u.vitalityMax buff.delta = .ok top)
    (hvitality : Word.subtract u.vitality buff.delta = .ok vitality) :
  ∃ v, u.undoBuff buff = .ok v
  := by
  rw [BoardUnit.undoBuff, hstat]
  by_cases hloss : buff.delta < 0
  · obtain ⟨v, hv⟩ := u.withVitality_exists vitality top
    use v
    apply bind_eq_ok.mpr ⟨top, htop, _⟩
    dsimp only
    rw [if_pos hloss]
    exact bind_eq_ok.mpr ⟨vitality, hvitality, hv⟩
  · obtain ⟨v, hv⟩ := u.withVitality_exists u.vitality top
    use v
    apply bind_eq_ok.mpr ⟨top, htop, _⟩
    dsimp only
    rw [if_neg hloss]
    exact hv

theorem Bears.undoVitality (hu : u.Bears (buff :: owed) room) (hstat : buff.stat = .vitality) :
  ∃ v, u.undoBuff buff = .ok v ∧ v.Bears owed room
  := by
  have low := hu.ranged.low
  have high := hu.ranged.high
  have hextent := hu.extent_add_le
  rw [hstat, BoardUnit.extent] at hextent
  obtain ⟨top, htop, -⟩ := Word.exact_exists .subtract
    (n := u.vitalityMax.toInt - buff.delta.toInt) (by omega) (by omega)
  obtain ⟨vitality, hvitality, -⟩ := Word.exact_exists .subtract
    (n := u.vitality.toInt - buff.delta.toInt) (by omega) (by omega)
  obtain ⟨v, hv⟩ := undoBuff_vitality_exists hstat htop hvitality
  obtain ⟨hranged, htop, -⟩ := undoBuff_vitality hu.ranged hv
  use v, hv
  apply hu.settle hranged
  intro stat
  by_cases hother : stat = .vitality
  · subst hother
    rw [BoardUnit.extent, BoardUnit.extent]
    omega
  · rw [extent_other hother, extent_other hother, undoBuff_other hother hv]
    omega

/-- A buff that is owed can be taken back. -/
theorem Bears.undoBuff (hu : u.Bears (buff :: owed) room) :
  ∃ v, u.undoBuff buff = .ok v ∧ v.Bears owed room
  := by
  by_cases hstat : buff.stat = .vitality
  · apply hu.undoVitality hstat
  · have hextent := hu.extent_add_le
    obtain ⟨delta, hdelta, htoInt⟩ := Word.exact_exists .negate (n := -buff.delta.toInt)
      (by omega) (by omega)
    obtain ⟨v, hv, hbears⟩ := hu.modifyStat
      (show delta.toInt.natAbs = buff.delta.toInt.natAbs by omega)
    refine ⟨v, ?_, hbears⟩
    rw [BoardUnit.undoBuff]
    split
    · next hvitality => exact absurd hvitality hstat
    · exact bind_eq_ok.mpr ⟨delta, hdelta, hv⟩

/-- Buffs that are owed can be taken back one after another. -/
theorem Bears.undoBuffs {buffs : List Buff} (hu : u.Bears (buffs ++ owed) room) :
  ∃ v, buffs.foldlM BoardUnit.undoBuff u = .ok v ∧ v.Bears owed room
  := by
  induction buffs generalizing u with
  | nil => exact ⟨u, rfl, hu⟩
  | cons buff rest ih =>
    obtain ⟨m, hm, hbears⟩ := Bears.undoBuff hu
    obtain ⟨v, hv, hbears⟩ := ih hbears
    refine ⟨v, ?_, hbears⟩
    rw [List.foldlM_cons]
    exact bind_eq_ok.mpr ⟨m, hm, hv⟩

/-- The end of buffs leaves the room as it is. -/
theorem HasRoom.expireBuffs (hu : u.HasRoom room) (expiry : Duration) :
  ∃ v, u.expireBuffs expiry = .ok v ∧ v.HasRoom room
  := by
  have hperm : u.buffs.Perm
      (u.expiring expiry ++ u.buffs.filter fun buff => buff.expiry ≠ expiry) := by
    have h := List.filter_append_perm (fun buff : Buff => decide (buff.expiry = expiry)) u.buffs
    simpa [expiring] using h.symm
  have hu : Bears (u.expiring expiry ++ u.buffs.filter fun buff => buff.expiry ≠ expiry) room
      { u with buffs := u.buffs.filter fun buff => buff.expiry ≠ expiry } := by
    apply (Bears.perm hu hperm).congr
    · exact ⟨hu.ranged.low, hu.ranged.high⟩
    · intro stat
      cases stat <;> rfl
  obtain ⟨v, hv, hbears⟩ := hu.undoBuffs
  use v, hv
  rw [HasRoom, expireBuffs_buffs hv]
  apply hbears

/-! ### Damage, healing and the end of a turn -/

/-- What does not concern statistics and buffs leaves the room as it is. -/
theorem HasRoom.congr (hu : u.HasRoom room) (hvitality : v.vitality = u.vitality)
    (htop : v.vitalityMax = u.vitalityMax) (himpact : v.impact = u.impact)
    (hdefence : v.defence = u.defence) (hvelocity : v.velocity = u.velocity)
    (hbuffs : v.buffs = u.buffs) :
  v.HasRoom room
  := by
  rw [HasRoom, hbuffs]
  apply Bears.congr hu
  · constructor
    · rw [hvitality]
      apply hu.ranged.low
    · rw [hvitality, htop]
      apply hu.ranged.high
  · intro stat
    cases stat with
    | vitality => rw [extent, extent, htop]
    | impact => exact congrArg (fun w : Int32 => w.toInt.natAbs) himpact
    | defence => exact congrArg (fun w : Int32 => w.toInt.natAbs) hdefence
    | velocity => exact congrArg (fun w : Int32 => w.toInt.natAbs) hvelocity

theorem HasRoom.marks (hu : u.HasRoom room) (h : u.Marks v) :
  v.HasRoom room
  := by
  rw [h.eq]
  exact hu.congr rfl rfl rfl rfl rfl rfl

theorem HasRoom.exerts (hu : u.HasRoom room) (h : u.Exerts v) :
  v.HasRoom room
  := by
  rw [h]
  exact hu.congr rfl rfl rfl rfl rfl rfl

theorem HasRoom.elsewhere (hu : u.HasRoom room) (cell : Cell) :
  HasRoom room { u with cell }
  := hu.congr rfl rfl rfl rfl rfl rfl

/-- Vitality in its range leaves the room as it is. -/
theorem HasRoom.withRange (hu : u.HasRoom room) (hv : v = { u with vitality := v.vitality })
    (hranged : v.Ranged) :
  v.HasRoom room
  := by
  have hbuffs : v.buffs = u.buffs := by rw [hv]
  rw [HasRoom, hbuffs]
  apply Bears.congr hu hranged
  intro stat
  rw [hv]
  cases stat <;> rfl

theorem HasRoom.takeDamage (hu : u.HasRoom room) (amount : Int32) :
  ∃ v, u.takeDamage amount = .ok v ∧ v.HasRoom room
  := by
  have low := hu.ranged.low
  have high := hu.ranged.high
  have hrange := u.vitality.toInt_lt
  have hword := Word.toInt_nearest (max 0 amount.toInt)
  obtain ⟨vitality, hvitality, -⟩ := Word.exact_exists .subtract
    (n := u.vitality.toInt - (Word.nearest (max 0 amount.toInt)).toInt) (by omega) (by omega)
  have htop : (0 : Int32).toInt ≤ (Word.nearest (max 0 u.vitalityMax.toInt)).toInt := by
    rw [Word.toInt_nearest, Int32.toInt_zero]
    omega
  obtain ⟨w, hw, -⟩ := Word.clamp_of_le htop vitality
  have hdamage : u.takeDamage amount = .ok { u with vitality := w } :=
    bind_eq_ok.mpr ⟨vitality, hvitality, bind_eq_ok.mpr ⟨w, hw, rfl⟩⟩
  obtain ⟨hv, hleft⟩ := takeDamage_ok hdamage
  refine ⟨_, hdamage, hu.withRange hv ⟨?_, ?_⟩⟩
  · rw [hleft]
    omega
  · rw [hleft]
    change _ ≤ u.vitalityMax.toInt
    omega

/-- Healing needs room for its amount, but leaves it as it is. -/
theorem HasRoom.heal (hu : u.HasRoom room) {amount : Int32} (hamount : amount.toInt ≤ room) :
  ∃ v gain, u.heal amount = .ok (v, gain) ∧ v.HasRoom room
  := by
  have low := hu.ranged.low
  have high := hu.ranged.high
  have hextent := hu.extent .vitality
  rw [extent] at hextent
  have hword := Word.toInt_nearest (max 0 amount.toInt)
  obtain ⟨sum, hsum, hsumInt⟩ := Word.exact_exists .add
    (n := u.vitality.toInt + (Word.nearest (max 0 amount.toInt)).toInt) (by omega) (by omega)
  have hhealed := Word.toInt_nearest (min sum.toInt u.vitalityMax.toInt)
  obtain ⟨gain, hgain, -⟩ := Word.exact_exists .subtract
    (n := (Word.nearest (min sum.toInt u.vitalityMax.toInt)).toInt - u.vitality.toInt)
    (by omega) (by omega)
  have hheal : u.heal amount
      = .ok ({ u with vitality := Word.nearest (min sum.toInt u.vitalityMax.toInt) }, gain) :=
    bind_eq_ok.mpr ⟨sum, hsum, bind_eq_ok.mpr ⟨gain, hgain, rfl⟩⟩
  obtain ⟨hv, hleft⟩ := heal_ok hheal
  refine ⟨_, gain, hheal, hu.withRange hv ⟨?_, ?_⟩⟩
  · rw [hleft]
    omega
  · rw [hleft]
    change _ ≤ u.vitalityMax.toInt
    omega

theorem HasRoom.keepLack (hu : u.HasRoom room) (l : Lacks) :
  (u.keepLack l).HasRoom room
  := by
  apply hu.withRange (keepLack_eq l u)
  have low := hu.ranged.low
  have high := hu.ranged.high
  have hrange := u.vitality.toInt_lt
  rw [BoardUnit.keepLack]
  split
  · next lack _ =>
    have hword := Word.toInt_nearest
      (max 0 (min u.vitality.toInt (u.vitalityMax.toInt - lack.toInt)))
    constructor <;> dsimp only <;> omega
  · exact hu.ranged

/-- The lack of a unit can be worked out. -/
theorem HasRoom.lack_exists (hu : u.HasRoom room) :
  ∃ lack, Word.subtract u.vitalityMax u.vitality = .ok lack
  := by
  have low := hu.ranged.low
  have high := hu.ranged.high
  have hrange := u.vitalityMax.toInt_lt
  obtain ⟨lack, hlack, -⟩ := Word.exact_exists .subtract
    (n := u.vitalityMax.toInt - u.vitality.toInt) (by omega) (by omega)
  exact ⟨lack, hlack⟩

theorem HasRoom.endCycle (hu : u.HasRoom room) :
  ∃ v, u.endCycle = .ok v ∧ v.HasRoom room
  := by
  have hrested : HasRoom room
      { u with
        hasAttacked := false
        isNew := false
        cooldowns := u.cooldowns.mapValues coolDown } :=
    hu.congr rfl rfl rfl rfl rfl rfl
  obtain ⟨w, hw, hroom⟩ := hrested.expireBuffs .endOfCycle
  exact ⟨_, bind_eq_ok.mpr ⟨w, hw, rfl⟩, hroom.congr rfl rfl rfl rfl rfl rfl⟩

end BoardUnit

/-! ### Treatments -/

/-- How much room of a statistic the tending of a unit needs. -/
def Tending.strain : Tending → Nat
  | heal amount => amount.toInt.toNat
  | mark _ => 0

/-- How much room of a statistic the treatment of a unit takes at most. -/
def Treatment.strain : Treatment → Nat
  | tend t => t.strain
  | damage _ => 0
  | modify _ delta _ => 2 * delta.toInt.natAbs

namespace BoardUnit

variable {room : Nat} {u : BoardUnit}

/-- Where there is room for it a unit can be tended, and keeps its room. -/
theorem HasRoom.tend {t : Tending} (hu : u.HasRoom room) (h : t.strain ≤ room) (turn : UInt32) :
  ∃ o, t.treat turn u = .ok o ∧ (o.unit?.getD u).HasRoom room
  := by
  cases t with
  | heal amount =>
    have hamount : amount.toInt ≤ room := by
      rw [Tending.strain] at h
      omega
    obtain ⟨v, gain, hheal, hv⟩ := hu.heal hamount
    exact ⟨_, bind_eq_ok.mpr ⟨(v, gain), hheal, rfl⟩, hv⟩
  | mark m =>
    refine ⟨_, rfl, ?_⟩
    cases hv : (m.mark turn u).unit? with
    | none => exact hu
    | some v => exact hu.marks (m.marked hv).marks

/-- Where there is room for it a unit can be treated. -/
theorem HasRoom.treat {t : Treatment} (hu : u.HasRoom (room + t.strain)) (turn : UInt32) :
  ∃ o, t.treat turn u = .ok o ∧ (o.unit?.getD u).HasRoom room
  := by
  cases t with
  | tend t =>
    obtain ⟨o, ho, hkept⟩ := hu.tend (Nat.le_add_left _ _) turn
    exact ⟨o, ho, hkept.mono (Nat.le_add_right _ _)⟩
  | damage amount =>
    obtain ⟨v, hv, hkept⟩ := hu.takeDamage amount
    exact ⟨_, bind_eq_ok.mpr ⟨v, hv, rfl⟩, hkept⟩
  | modify stat delta duration =>
    obtain ⟨v, hv, hkept⟩ := HasRoom.addBuff duration hu
    exact ⟨_, bind_eq_ok.mpr ⟨v, hv, rfl⟩, hkept⟩

end BoardUnit

end CardBattle
