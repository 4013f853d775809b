import CardBattle.Proofs.AttackModifier.Supply
import CardBattle.Proofs.BoardUnit.Statistics
import CardBattle.Script.Step

/-!
# Alterations of units

A step changes a unit in one of four ways: it damages it, it heals it, it changes one of its
statistics, or it marks it, which leaves its place and its statistics alone.  No alteration
moves a unit or gives it away, and none lifts the vitality of a living unit above its maximum.
What a unit has done and may still do in its turn is not altered by steps, but by the actions
in which the unit exerts itself.

Which statistics a script can change is known from its steps (`scriptModifiesOnly`).
-/

namespace CardBattle

mutual

/-- A step, and every step of its branches, changes only statistics that are allowed. -/
def Step.ModifiesOnly (allowed : Stat → Prop) : Step → Prop
  | .modifyStat _ stat _ _ => allowed stat
  | .branch _ thenSteps elseSteps =>
      scriptModifiesOnly allowed thenSteps ∧ scriptModifiesOnly allowed elseSteps
  | _ => True

/-- Every step of a script, at any nesting, changes only statistics that are allowed. -/
def scriptModifiesOnly (allowed : Stat → Prop) : List Step → Prop
  | [] => True
  | step :: rest => step.ModifiesOnly allowed ∧ scriptModifiesOnly allowed rest

end

mutual

/-- Where all statistics are allowed, every step changes only those. -/
theorem Step.modifiesOnly_any (step : Step) :
  step.ModifiesOnly fun _ => True
  := by
  cases step with
  | branch test thenSteps elseSteps =>
    exact ⟨scriptModifiesOnly_any thenSteps, scriptModifiesOnly_any elseSteps⟩
  | _ => trivial

/-- Where all statistics are allowed, every script changes only those. -/
theorem scriptModifiesOnly_any (script : List Step) :
  scriptModifiesOnly (fun _ => True) script
  := by
  cases script with
  | nil => trivial
  | cons step rest => exact ⟨step.modifiesOnly_any, scriptModifiesOnly_any rest⟩

end

namespace BoardUnit

/-- Neither the place of the unit nor its statistics and buffs differ, nor what it has done
and may still do in its turn; attack modifiers that are not consumed have come behind those
that it had. -/
structure Marks (u v : BoardUnit) : Prop where
  eq : v = { u with
    statuses := v.statuses
    immunities := v.immunities
    modifiers := v.modifiers
    flags := v.flags
    reach := v.reach
    isUntargetable := v.isUntargetable
    preventedUntil := v.preventedUntil }
  modifiers : AttackModifier.Adds u.modifiers v.modifiers

/-- Nothing differs but what the unit has done and may still do in its turn. -/
def Exerts (u v : BoardUnit) : Prop :=
  v = { u with
    cooldowns := v.cooldowns
    usesLeft := v.usesLeft
    modifiers := v.modifiers
    hasAttacked := v.hasAttacked }

/-- What a step can make of a unit. -/
inductive Alters (allowed : Stat → Prop) (u v : BoardUnit) : Prop
  | damage {amount : Int32} (h : u.takeDamage amount = .ok v)
  | heal {amount gain : Int32} (h : u.heal amount = .ok (v, gain))
  | modify {stat : Stat} {delta : Int32} {duration : Duration} (hstat : allowed stat)
      (h : u.addBuff stat delta duration = .ok v)
  | mark (h : u.Marks v)

/-- One thing that a step does to a unit. -/
inductive Undergoes (u : BoardUnit) : BoardUnit → Prop
  | damage {amount : Int32} {v : BoardUnit} (h : u.takeDamage amount = .ok v) : Undergoes u v
  | heal {amount gain : Int32} {v : BoardUnit} (h : u.heal amount = .ok (v, gain)) :
      Undergoes u v
  | modify {stat : Stat} {delta : Int32} {duration : Duration} {v : BoardUnit}
      (h : u.addBuff stat delta duration = .ok v) : Undergoes u v
  /-- The unit comes into a status that it is not in yet. -/
  | afflict {status : String} (detail : Option String) (h : u.hasStatus status = false) :
      Undergoes u { u with statuses := u.statuses ++ [⟨status, detail⟩] }
  | relieve {statuses : List Status} (h : statuses.Sublist u.statuses) :
      Undergoes u { u with statuses }
  | immunize (names : List String) : Undergoes u (names.foldl addImmunity u)
  /-- The unit gets another mark than a status or an immunity. -/
  | mark {v : BoardUnit} (h : u.Marks v) (hstatuses : v.statuses = u.statuses)
      (himmunities : v.immunities = u.immunities) : Undergoes u v

variable {u v w : BoardUnit} {allowed : Stat → Prop}

theorem Marks.refl (u : BoardUnit) :
  u.Marks u
  := ⟨rfl, .refl _⟩

theorem Marks.trans (huv : u.Marks v) (hvw : v.Marks w) :
  u.Marks w
  := by
  constructor
  · rw [hvw.eq, huv.eq]
  · apply huv.modifiers.trans hvw.modifiers

theorem Marks.endures (h : u.Marks v) :
  u.Endures v
  := by
  rw [h.eq]
  exact ⟨⟨rfl, rfl, rfl⟩, rfl, id⟩

theorem Marks.isAlive_eq (h : u.Marks v) :
  v.isAlive = u.isAlive
  := by
  rw [h.eq]
  rfl

theorem Exerts.endures (h : u.Exerts v) :
  u.Endures v
  := by
  rw [h]
  exact ⟨⟨rfl, rfl, rfl⟩, rfl, id⟩

/-- Immunities are marks of a unit. -/
theorem addImmunity_marks (u : BoardUnit) (name : String) :
  u.Marks (u.addImmunity name)
  := by
  rw [addImmunity]
  split
  · apply Marks.refl
  · exact ⟨rfl, .refl _⟩

theorem foldl_addImmunity_marks (u : BoardUnit) (names : List String) :
  u.Marks (names.foldl addImmunity u)
  := by
  induction names generalizing u with
  | nil => apply Marks.refl
  | cons name rest ih => exact (u.addImmunity_marks name).trans (ih _)

theorem foldl_addImmunity_preventedUntil (u : BoardUnit) (names : List String) :
  (names.foldl addImmunity u).preventedUntil = u.preventedUntil
  := by
  induction names generalizing u with
  | nil => rfl
  | cons name rest ih =>
    rw [List.foldl_cons, ih, addImmunity]
    split <;> rfl

/-- Immunities are added whatever the buffs of the unit are. -/
theorem foldl_addImmunity_buffs (u : BoardUnit) (names : List String) (buffs : List Buff) :
  names.foldl addImmunity { u with buffs } = { names.foldl addImmunity u with buffs }
  := by
  induction names generalizing u with
  | nil => rfl
  | cons name rest ih =>
    rw [List.foldl_cons, List.foldl_cons, ← ih, addImmunity, addImmunity]
    split <;> rfl

/-- A unit without its first negative status is marked. -/
theorem removeNegativeStatus?_marks {status : Status}
    (h : u.removeNegativeStatus? = some (v, status)) :
  u.Marks v
  := by
  simp only [removeNegativeStatus?, Option.map_eq_some_iff, Prod.mk.injEq] at h
  obtain ⟨_, -, rfl, -⟩ := h
  exact ⟨rfl, .refl _⟩

/-- An alteration is one too where more statistics are allowed. -/
theorem Alters.mono {allowed' : Stat → Prop} (hallowed : ∀ stat, allowed stat → allowed' stat)
    (h : u.Alters allowed v) :
  u.Alters allowed' v
  := by
  cases h with
  | damage h => apply Alters.damage h
  | heal h => apply Alters.heal h
  | modify hstat h => apply Alters.modify (hallowed _ hstat) h
  | mark h => apply Alters.mark h

/-- What a unit undergoes is an alteration of it. -/
theorem Undergoes.alters (h : u.Undergoes v) :
  u.Alters (fun _ => True) v
  := by
  cases h with
  | damage h => apply Alters.damage h
  | heal h => apply Alters.heal h
  | modify h => apply Alters.modify trivial h
  | afflict | relieve =>
    apply Alters.mark
    exact ⟨rfl, .refl _⟩
  | immunize names => apply Alters.mark (u.foldl_addImmunity_marks names)
  | mark h => apply Alters.mark h

/-! ### What all alterations keep -/

/-- No alteration changes the place of a unit or takes its vitality out of bounds. -/
theorem Alters.endures (h : u.Alters allowed v) :
  u.Endures v
  := by
  cases h with
  | damage h => apply (takeDamage_restats h).endures fun _ => takeDamage_bounded h
  | heal h => apply (heal_restats h).endures fun _ => heal_bounded h
  | modify _ h => apply (addBuff_restats h).endures (addBuff_bounded h)
  | mark h => apply h.endures

/-- No alteration but a change of a statistic touches the buffs. -/
theorem Alters.buffs_eq (h : u.Alters (fun _ => False) v) :
  v.buffs = u.buffs
  := by
  cases h with
  | damage h => rw [(takeDamage_ok h).1]
  | heal h => rw [(heal_ok h).1]
  | modify hstat => exact hstat.elim
  | mark h => rw [h.eq]

/-! ### Alterations that take no vitality -/

/-- Healing keeps a unit alive that has no more than its maximum of vitality. -/
theorem heal_alive {amount gain : Int32} (h : u.heal amount = .ok (v, gain)) (hu : u.Bounded)
    (halive : u.isAlive) :
  v.isAlive
  := by
  obtain ⟨-, hvitality⟩ := heal_ok h
  rw [bounded_iff] at hu
  rw [isAlive_iff] at *
  have hbounded := hu halive
  omega

/-- A change of a statistic keeps a unit alive unless it is a loss of vitality. -/
theorem addBuff_alive {stat : Stat} {delta : Int32} {duration : Duration}
    (h : u.addBuff stat delta duration = .ok v) (hdelta : ¬(stat = .vitality ∧ delta < 0))
    (hu : u.Bounded) (halive : u.isAlive) :
  v.isAlive
  := by
  obtain ⟨w, hw, rfl⟩ := addBuff_ok h
  rw [bounded_iff] at hu
  rw [isAlive_iff] at *
  change 0 < w.vitality.toInt
  have hbounded := hu halive
  by_cases hstat : stat = .vitality
  · subst hstat
    obtain ⟨-, htop, hvitality⟩ := modifyStat_vitality_ok hw
    have hgain : 0 ≤ delta.toInt := by
      simpa [Int32.lt_iff_toInt_lt] using hdelta
    omega
  · rw [modifyStat_other_ok hstat hw]
    exact halive

end BoardUnit

end CardBattle
