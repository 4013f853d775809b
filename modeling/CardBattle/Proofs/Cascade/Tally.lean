import CardBattle.Proofs.BoardUnit.Steadiness
import CardBattle.Proofs.Cascade.Soundness

/-!
# Tallies

Impact is made to count all units that leave the boards, velocity those of the own side and
defence those of the opponent (`Stat.counts`).  For the units of one card, a change of the
battle tallies when every statistic has grown by as much as there are fewer units that it
counts, and by a credit for units that have left earlier (`Battle.Tallies`).  Changes that
tally compose, and their credits add up.
-/

namespace CardBattle

/-- Whether a statistic of a unit of `owner` counts a unit of another owner. -/
def Stat.counts (owner other : UInt8) : Stat → Bool
  | .vitality => false
  | .impact => true
  | .velocity => other = owner
  | .defence => other ≠ owner

/-- The number of units on the boards that a statistic of a unit of `owner` counts. -/
def Battle.census (b : Battle) (owner : UInt8) (stat : Stat) : Nat :=
  (b.units.map BoardUnit.owner).countP (stat.counts owner)

/-- What is still to be added to a statistic of the unit of a uid and an owner. -/
abbrev Credit := Uid → UInt8 → Stat → Int

namespace BoardUnit

/-- The unit keeps its uid, card and owner; as long as only its vitality is buffed, and if it
is of the card, all other statistics grow by what is due to them. -/
structure Accrues (id : String) (due : Stat → Int) (u v : BoardUnit) : Prop
    extends Persists u v where
  plain : u.Plain → v.Plain
  grown : u.Plain → v.cardId = id → ∀ stat, stat ≠ .vitality →
    (v.stat stat).toInt = (u.stat stat).toInt + due stat

variable {id : String} {u v w : BoardUnit} {due due' : Stat → Int}

theorem Steady.accrues (h : u.Steady v) :
  u.Accrues id (fun _ => 0) v
  := by
  use h.toPersists, h.plain
  intro hu _ stat hstat
  rw [h.stat_eq hu stat hstat, Int.add_zero]

theorem Accrues.congr (h : u.Accrues id due v)
    (hdue : v.cardId = id → ∀ stat, stat ≠ .vitality → due stat = due' stat) :
  u.Accrues id due' v
  := by
  use h.toPersists, h.plain
  intro hu hcard stat hstat
  rw [← hdue hcard stat hstat]
  apply h.grown hu hcard stat hstat

theorem Accrues.trans (huv : u.Accrues id due v) (hvw : v.Accrues id due' w) :
  u.Accrues id (fun stat => due stat + due' stat) w
  := by
  use huv.toPersists.trans hvw.toPersists
  · intro hu
    apply hvw.plain (huv.plain hu)
  · intro hu hcard stat hstat
    have hv := huv.grown hu (hvw.cardId.symm.trans hcard) stat hstat
    have hw := hvw.grown (huv.plain hu) hcard stat hstat
    omega

end BoardUnit

namespace Battle

/-- The units come from units before; as long as only vitality is buffed, the statistics of
those of the card have grown by as much as there are fewer units that they count, and by the
credit. -/
def Tallies (id : String) (credit : Credit) (b b' : Battle) : Prop :=
  ∀ v ∈ b'.units, ∃ u ∈ b.units,
    u.Accrues id (fun stat =>
      b.census v.owner stat - b'.census v.owner stat + credit v.uid v.owner stat) v

/-- A change that tallies without any credit. -/
abbrev Balances (id : String) : Battle → Battle → Prop :=
  Tallies id fun _ _ _ => 0

variable {id : String} {b m b' : Battle} {credit credit' : Credit}

/-- The credit matters only for the units of the card. -/
theorem Tallies.congr (h : b.Tallies id credit b')
    (hcredit : ∀ u ∈ b.units, u.cardId = id → ∀ stat, stat ≠ .vitality →
      credit u.uid u.owner stat = credit' u.uid u.owner stat) :
  b.Tallies id credit' b'
  := by
  intro v hv
  obtain ⟨u, hu, haccrues⟩ := h v hv
  use u, hu
  apply haccrues.congr
  intro hcard stat hstat
  rw [haccrues.uid, haccrues.owner,
    hcredit u hu (haccrues.cardId.symm.trans hcard) stat hstat]

/-- Credits add up over changes one after another. -/
theorem Tallies.trans (h : b.Tallies id credit m) (h' : m.Tallies id credit' b') :
  b.Tallies id (fun uid owner stat => credit uid owner stat + credit' uid owner stat) b'
  := by
  intro w hw
  obtain ⟨v, hv, hvw⟩ := h' w hw
  obtain ⟨u, hu, huv⟩ := h v hv
  use u, hu
  apply (huv.trans hvw).congr
  intro _ stat _
  rw [hvw.uid, hvw.owner]
  dsimp only
  omega

theorem Balances.trans (h : b.Balances id m) (h' : m.Balances id b') :
  b.Balances id b'
  := by
  apply (Tallies.trans h h').congr
  intro v _ _ stat _
  rfl

/-! ### Steady changes -/

/-- Every unit comes steady from a unit before, and both sides have as many units as they
had. -/
structure Steadies (b b' : Battle) : Prop where
  steady : ∀ v ∈ b'.units, ∃ u ∈ b.units, u.Steady v
  owners : (b'.units.map BoardUnit.owner).Perm (b.units.map BoardUnit.owner)

theorem Steadies.refl (b : Battle) :
  b.Steadies b
  := by
  constructor
  · intro v hv
    exact ⟨v, hv, .refl v⟩
  · apply List.Perm.refl

theorem Steadies.trans (h : b.Steadies m) (h' : m.Steadies b') :
  b.Steadies b'
  := by
  constructor
  · intro w hw
    obtain ⟨v, hv, hvw⟩ := h'.steady w hw
    obtain ⟨u, hu, huv⟩ := h.steady v hv
    exact ⟨u, hu, huv.trans hvw⟩
  · apply h'.owners.trans h.owners

/-- Where the units are the same the change is steady. -/
theorem steadies_of_units (h : b'.units = b.units) :
  b.Steadies b'
  := by
  constructor
  · intro v hv
    rw [h] at hv
    exact ⟨v, hv, .refl v⟩
  · rw [h]

/-- A steady change balances. -/
theorem Steadies.balances (h : b.Steadies b') :
  b.Balances id b'
  := by
  intro v hv
  obtain ⟨u, hu, hsteady⟩ := h.steady v hv
  use u, hu
  apply hsteady.accrues.congr
  intro _ stat _
  have hcensus : b'.census v.owner stat = b.census v.owner stat := h.owners.countP_eq _
  dsimp only
  omega

theorem Balances.refl (b : Battle) :
  b.Balances id b
  := (Steadies.refl b).balances

theorem Rearranges.steadies (h : b.Rearranges b') :
  b.Steadies b'
  := by
  constructor
  · intro v hv
    obtain ⟨u, hu, hsame⟩ := h.exists_unit hv
    use u, hu
    rw [hsame]
    apply u.steady_elsewhere
  · have howners := h.units.map BoardUnit.owner
    rw [List.map_map, List.map_map] at howners
    apply howners

theorem steadies_changeAll {f : BoardUnit → Except Fault BoardUnit}
    (hf : ∀ u v, f u = .ok v → u.Steady v) (h : b.changeAll f = .ok b') :
  b.Steadies b'
  := by
  constructor
  · intro v hv
    obtain ⟨i, hi⟩ := List.mem_iff_getElem?.mp hv
    obtain ⟨u, hu, huv⟩ := Board.getElem?_of_forall (changeAll_units h) hi
    exact ⟨u, List.mem_of_getElem? hu, hf u v huv⟩
  · rw [map_changeAll (fun u v huv => (hf u v huv).owner) h]

/-- A touch is steady when the alterations of units are. -/
theorem Coherent.touch_steadies {A : BoardUnit → BoardUnit → Prop} (hb : b.Coherent)
    (hendures : ∀ u v, A u v → u.Endures v) (hsteady : ∀ u v, A u v → u.Steady v)
    (h : Touch A b b') :
  b.Steadies b'
  := by
  cases h with
  | note h => apply steadies_of_units h.units_eq
  | @alter u v hu h =>
    obtain ⟨l, r, hold, hnew⟩ := hb.units_replace hu (hendures _ _ h).uid
    constructor
    · intro w hw
      rw [hnew] at hw
      rw [hold]
      simp only [List.mem_append, List.mem_singleton] at hw ⊢
      obtain (hw | rfl) | hw := hw
      · exact ⟨w, .inl (.inl hw), .refl w⟩
      · exact ⟨u, .inl (.inr rfl), hsteady _ _ h⟩
      · exact ⟨w, .inr hw, .refl w⟩
    · rw [hold, hnew]
      simp [(hendures _ _ h).owner]
  | shift hs h => apply steadies_of_units (units_shift hs h.board)
  | swap h =>
    obtain rfl | ⟨m, hm, -, hlogs⟩ := stepSwap_leads hb h
    · apply Steadies.refl
    · apply hm.steadies.trans (steadies_of_units hlogs.units_eq)

/-! ### Departures, and changes of one unit -/

/-- The statistics of the units that stay owe one to the unit that departs, if they count
it. -/
theorem Departs.tallies {gone : BoardUnit} (h : Departs gone b b') :
  b.Tallies id (fun _ owner stat => -(if stat.counts owner gone.owner then 1 else 0)) b'
  := by
  obtain ⟨l, r, hold, hnew⟩ := h.units
  intro v hv
  use v, h.subset_units hv
  apply (BoardUnit.Steady.refl v).accrues.congr
  intro _ stat _
  have hcensus : b.census v.owner stat
      = b'.census v.owner stat + if stat.counts v.owner gone.owner then 1 else 0 := by
    unfold census
    rw [hold, hnew]
    simp only [List.map_append, List.map_cons, List.map_nil, List.countP_append,
      List.countP_singleton]
    omega
  rw [hcensus]
  dsimp only
  split
  · omega
  · omega

/-- What the statistics of one unit gain is credited to it. -/
theorem Coherent.replace_tallies (hb : b.Coherent) {u v : BoardUnit}
    (hu : b.find? u.uid = some u) (hpersists : u.Persists v) (hplain : u.Plain → v.Plain)
    {due : Stat → Int} (hdue : ∀ stat, (v.stat stat).toInt = (u.stat stat).toInt + due stat) :
  b.Tallies id (fun uid _ stat => if uid = u.uid then due stat else 0) (b.replace v)
  := by
  obtain ⟨l, r, hold, hnew⟩ := hb.units_replace hu hpersists.uid
  have hcensus : ∀ owner stat, (b.replace v).census owner stat = b.census owner stat := by
    intro owner stat
    unfold census
    rw [hold, hnew]
    simp [hpersists.owner]
  have hdistinct := hb.distinct
  rw [hold] at hdistinct
  intro w hw
  rw [hnew] at hw
  rw [hold]
  simp only [hcensus]
  obtain hw | rfl : w ∈ l ++ r ∨ w = v := by
    simp only [List.mem_append, List.mem_singleton] at hw ⊢
    tauto
  · have hne := uid_ne_of_distinct hdistinct w hw
    refine ⟨w, ?_, (BoardUnit.Steady.refl w).accrues.congr ?_⟩
    · simp only [List.mem_append] at hw ⊢
      tauto
    · intro _ stat _
      rw [if_neg hne]
      omega
  · refine ⟨u, by simp, hpersists, hplain, ?_⟩
    intro _ _ stat _
    rw [hdue, if_pos hpersists.uid]
    omega

end Battle

end CardBattle
