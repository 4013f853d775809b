import CardBattle.Proofs.BoardUnit.Treatment

/-!
# Units fail only by overflow

A change of the statistics of a unit stops only where a sum, a difference or a negation is no
word.  Vitality can always be brought into its range: the upper end is never below zero, even
for a unit whose maximum of vitality is.
-/

namespace CardBattle

/-- The value of an arithmetic operation is not a word. -/
def Fault.IsOverflow (fault : Fault) : Prop :=
  ∃ operation, fault = .overflow operation

namespace Word

theorem exact_failsOnly (operation : Operation) (n : Int) :
  FailsOnly Fault.IsOverflow (exact operation n)
  := by
  intro fault h
  rw [exact] at h
  split at h
  · cases h
  · obtain rfl := Except.error.inj h
    use operation

theorem next_failsOnly (n : UInt32) :
  FailsOnly Fault.IsOverflow (next n)
  := by
  intro fault h
  rw [next] at h
  split at h
  · cases h
  · obtain rfl := Except.error.inj h
    use .add

/-- A word can be brought between zero and a word that is not below it. -/
theorem clamp_failsOnly (n : Int) (w : Int32) :
  FailsOnly Fault.IsOverflow (clamp 0 (nearest (max 0 n)) w)
  := by
  have hrange : (0 : Int32).toInt ≤ (nearest (max 0 n)).toInt := by
    rw [toInt_nearest, Int32.toInt_zero]
    omega
  obtain ⟨v, hv, -⟩ := clamp_of_le hrange w
  rw [hv]
  apply failsOnly_ok

end Word

/-- A fold fails as `S` says when each of its steps does. -/
theorem foldlM_failsOnly {ε α β : Type} {S : ε → Prop} {f : β → α → Except ε β}
    (hf : ∀ b a, FailsOnly S (f b a)) (l : List α) (b : β) :
  FailsOnly S (l.foldlM f b)
  := by
  induction l generalizing b with
  | nil => apply failsOnly_ok
  | cons a l ih =>
    rw [List.foldlM_cons]
    apply (hf b a).bind
    intro b' _
    apply ih

/-- Results for all elements of a list fail to be had as `S` says when each does. -/
theorem mapM_failsOnly {ε α β : Type} {S : ε → Prop} {f : α → Except ε β} {l : List α}
    (hf : ∀ a ∈ l, FailsOnly S (f a)) :
  FailsOnly S (l.mapM f)
  := by
  induction l with
  | nil => apply failsOnly_ok
  | cons a l ih =>
    rw [List.mapM_cons]
    apply (hf a List.mem_cons_self).bind
    intro b _
    apply (ih fun c hc => hf c (List.mem_cons_of_mem a hc)).bind
    intro bs _
    apply failsOnly_ok

namespace BoardUnit

theorem withVitality_failsOnly (u : BoardUnit) (vitality vitalityMax : Int32) :
  FailsOnly Fault.IsOverflow (u.withVitality vitality vitalityMax)
  := by
  dsimp only [withVitality]
  apply (Word.clamp_failsOnly _ _).bind
  intro w _
  apply failsOnly_ok

theorem modifyStat_failsOnly (u : BoardUnit) (delta : Int32) (stat : Stat) :
  FailsOnly Fault.IsOverflow (u.modifyStat delta stat)
  := by
  cases stat with
  | vitality =>
    apply (Word.exact_failsOnly _ _).bind
    intro top _
    apply (Word.exact_failsOnly _ _).bind
    intro vitality _
    apply withVitality_failsOnly
  | impact =>
    apply (Word.exact_failsOnly _ _).bind
    intro w _
    apply failsOnly_ok
  | defence =>
    apply (Word.exact_failsOnly _ _).bind
    intro w _
    apply failsOnly_ok
  | velocity =>
    apply (Word.exact_failsOnly _ _).bind
    intro w _
    apply failsOnly_ok

theorem addBuff_failsOnly (u : BoardUnit) (stat : Stat) (delta : Int32) (expiry : Duration) :
  FailsOnly Fault.IsOverflow (u.addBuff stat delta expiry)
  := by
  apply (u.modifyStat_failsOnly delta stat).bind
  intro w _
  cases expiry with
  | permanent => apply failsOnly_ok
  | endOfCycle => apply failsOnly_ok
  | aura => apply failsOnly_ok

theorem undoBuff_failsOnly (u : BoardUnit) (buff : Buff) :
  FailsOnly Fault.IsOverflow (u.undoBuff buff)
  := by
  rw [undoBuff]
  split
  · apply (Word.exact_failsOnly _ _).bind
    intro top _
    dsimp only
    split
    · apply (Word.exact_failsOnly _ _).bind
      intro vitality _
      apply withVitality_failsOnly
    · apply withVitality_failsOnly
  · apply (Word.exact_failsOnly _ _).bind
    intro delta _
    apply modifyStat_failsOnly

theorem expireBuffs_failsOnly (u : BoardUnit) (expiry : Duration) :
  FailsOnly Fault.IsOverflow (u.expireBuffs expiry)
  := foldlM_failsOnly undoBuff_failsOnly _ _

theorem takeDamage_failsOnly (u : BoardUnit) (amount : Int32) :
  FailsOnly Fault.IsOverflow (u.takeDamage amount)
  := by
  apply (Word.exact_failsOnly _ _).bind
  intro vitality _
  dsimp only
  apply (Word.clamp_failsOnly _ _).bind
  intro w _
  apply failsOnly_ok

theorem heal_failsOnly (u : BoardUnit) (amount : Int32) :
  FailsOnly Fault.IsOverflow (u.heal amount)
  := by
  apply (Word.exact_failsOnly _ _).bind
  intro vitality _
  apply (Word.exact_failsOnly _ _).bind
  intro gain _
  apply failsOnly_ok

theorem endCycle_failsOnly (u : BoardUnit) :
  FailsOnly Fault.IsOverflow u.endCycle
  := by
  apply (expireBuffs_failsOnly _ _).bind
  intro w _
  apply failsOnly_ok

end BoardUnit

/-! ### Treatments -/

theorem Tending.treat_failsOnly (t : Tending) (turn : UInt32) (u : BoardUnit) :
  FailsOnly Fault.IsOverflow (t.treat turn u)
  := by
  cases t with
  | heal amount =>
    apply (u.heal_failsOnly amount).bind
    rintro ⟨healed, gain⟩ _
    apply failsOnly_ok
  | mark m => apply failsOnly_ok

theorem Tending.change_failsOnly (t : Tending) (turn : UInt32) (u : BoardUnit) :
  FailsOnly Fault.IsOverflow (t.change turn u)
  := by
  apply (t.treat_failsOnly turn u).bind
  intro o _
  apply failsOnly_ok

/-- A treatment fails only as the change of a statistic does. -/
theorem Treatment.treat_failsOnly (t : Treatment) (turn : UInt32) (u : BoardUnit) :
  FailsOnly Fault.IsOverflow (t.treat turn u)
  := by
  cases t with
  | tend t => apply t.treat_failsOnly
  | damage amount =>
    apply (u.takeDamage_failsOnly amount).bind
    intro hurt _
    apply failsOnly_ok
  | modify stat delta duration =>
    apply (u.addBuff_failsOnly stat delta duration).bind
    intro changed _
    apply failsOnly_ok

end CardBattle
