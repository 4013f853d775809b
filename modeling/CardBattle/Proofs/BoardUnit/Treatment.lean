import CardBattle.Cascade.Script
import CardBattle.Proofs.BoardUnit.Alteration

/-!
# Treatments of units

What a step of a script does to a unit is one of four things: it heals the unit, marks it,
damages it, or changes one of its statistics (`Treatment`).  The first two tend the unit, and
only the other two can take its life.  What comes of a treatment is known from the unit and
the turn alone (`Outcome`), and it is something that a unit undergoes.

A marking is given together with what every marking is known for: it leaves the place and the
statistics of the unit alone, and it does not see its buffs.
-/

namespace CardBattle

/-- What comes of treating a unit: the unit afterwards, and what the log says of it behind its
name.  Either may be missing. -/
structure Outcome where
  unit? : Option BoardUnit := none
  remark? : Option String := none

/-- The unit is marked in one thing that a step does to it; only where this prevents active
abilities the turn up to which they are prevented is touched. -/
structure BoardUnit.MarkedBy (prevents : Bool) (u v : BoardUnit) : Prop where
  marks : u.Marks v
  undergoes : u.Undergoes v
  preventedUntil : prevents = false → v.preventedUntil = u.preventedUntil

/-- A way to mark a unit in a turn. -/
structure Marking where
  mark : UInt32 → BoardUnit → Outcome
  /-- Whether active abilities are prevented. -/
  prevents : Bool := false
  marked {turn : UInt32} {u v : BoardUnit} (h : (mark turn u).unit? = some v) :
    u.MarkedBy prevents v
  mark_buffs (turn : UInt32) (u : BoardUnit) (buffs : List Buff) :
    mark turn { u with buffs } =
      { unit? := (mark turn u).unit?.map fun v => { v with buffs }
        remark? := (mark turn u).remark? }

namespace Marking

/-- A mark that is neither a status nor an immunity. -/
theorem markedBy {prevents : Bool} {u v : BoardUnit} (h : u.Marks v)
    (hstatuses : v.statuses = u.statuses) (himmunities : v.immunities = u.immunities)
    (hprevented : prevents = false → v.preventedUntil = u.preventedUntil) :
  u.MarkedBy prevents v
  := ⟨h, .mark h hstatuses himmunities, hprevented⟩

/-- Puts a unit into a status, unless the unit is immune to it or in it already. -/
def applyStatus (status : String) (detail : Option String) : Marking where
  mark _ u :=
    if u.isImmuneTo status then { remark? := " è immune a " ++ status }
    else if u.hasStatus status then {}
    else { unit? := some { u with statuses := u.statuses ++ [⟨status, detail⟩] }
           remark? := " ottiene " ++ status }
  marked {turn u v} h := by
    split at h
    · cases h
    · split at h
      · cases h
      · next hnot =>
        cases h
        exact ⟨⟨rfl, .refl _⟩, .afflict detail (by simpa using hnot), fun _ => rfl⟩
  mark_buffs turn u buffs := by
    have himmune : BoardUnit.isImmuneTo { u with buffs } status = u.isImmuneTo status := rfl
    have hstatus : BoardUnit.hasStatus { u with buffs } status = u.hasStatus status := rfl
    rw [himmune, hstatus]
    split
    · rfl
    · split <;> rfl

/-- Removes a status that a unit is in. -/
def removeStatus (status : String) : Marking where
  mark _ u :=
    if u.hasStatus status then
      { unit? := some { u with statuses := u.statuses.filter fun s => !s.isNamed status }
        remark? := " perde " ++ status }
    else {}
  marked {turn u v} h := by
    split at h
    · cases h
      exact ⟨⟨rfl, .refl _⟩, .relieve List.filter_sublist, fun _ => rfl⟩
    · cases h
  mark_buffs turn u buffs := by
    have hstatus : BoardUnit.hasStatus { u with buffs } status = u.hasStatus status := rfl
    rw [hstatus]
    split <;> rfl

/-- Removes the first negative status of a unit. -/
def removeNegativeStatus : Marking where
  mark _ u :=
    { unit? := u.removeNegativeStatus?.map Prod.fst
      remark? := u.removeNegativeStatus?.map fun cured => " perde " ++ cured.2.name }
  marked {turn u v} h := by
    obtain ⟨⟨cured, status⟩, hcured, rfl⟩ := Option.map_eq_some_iff.mp h
    have hmarks := BoardUnit.removeNegativeStatus?_marks hcured
    obtain ⟨_, -, heq⟩ := Option.map_eq_some_iff.mp hcured
    obtain ⟨rfl, -⟩ := Prod.mk.inj heq
    exact ⟨hmarks, .relieve List.eraseP_sublist, fun _ => rfl⟩
  mark_buffs turn u buffs := by
    simp only [BoardUnit.removeNegativeStatus?, Option.map_map]
    rfl

/-- Prevents the active abilities of a unit for a number of turns after this one. -/
def preventActive (cycles : UInt32) : Marking where
  mark turn u :=
    let first := Word.nearestUnsigned (turn.toNat + cycles.toNat)
    let free := Word.nearestUnsigned (first.toNat + 1)
    { unit? := some { u with preventedUntil := some free }
      remark? := " non può usare abilità attive fino al turno " ++ toString free }
  prevents := true
  marked {turn u v} h := by
    cases h
    exact markedBy ⟨rfl, .refl _⟩ rfl rfl nofun
  mark_buffs _ _ _ := rfl

/-- Makes a unit immune to statuses. -/
def grantImmunity (statuses : List String) : Marking where
  mark _ u := { unit? := some (statuses.foldl BoardUnit.addImmunity u) }
  marked {turn u v} h := by
    cases h
    exact ⟨u.foldl_addImmunity_marks statuses, .immunize statuses,
      fun _ => u.foldl_addImmunity_preventedUntil statuses⟩
  mark_buffs turn u buffs := by
    rw [Option.map_some, BoardUnit.foldl_addImmunity_buffs]

/-- Sets or clears a flag of a unit. -/
def setFlag (flag : String) (value : Bool) : Marking where
  mark _ u := { unit? := some { u with flags := u.flags.insert flag value } }
  marked {turn u v} h := by
    cases h
    exact markedBy ⟨rfl, .refl _⟩ rfl rfl fun _ => rfl
  mark_buffs _ _ _ := rfl

/-- Makes a boost ready for an attack of a unit. -/
def boostAttack (boost : Boost) : Marking where
  mark _ u :=
    { unit? := some { u with modifiers := u.modifiers ++ [{ toBoost := boost }] }
      remark? := " prepara un attacco potenziato" }
  marked {turn u v} h := by
    cases h
    exact markedBy ⟨rfl, AttackModifier.adds_boost _ boost⟩ rfl rfl fun _ => rfl
  mark_buffs _ _ _ := rfl

def grantReach (reach : Reach) : Marking where
  mark _ u := { unit? := some { u with reach := some reach } }
  marked {turn u v} h := by
    cases h
    exact markedBy ⟨rfl, .refl _⟩ rfl rfl fun _ => rfl
  mark_buffs _ _ _ := rfl

def grantUntargetable : Marking where
  mark _ u := { unit? := some { u with isUntargetable := true } }
  marked {turn u v} h := by
    cases h
    exact markedBy ⟨rfl, .refl _⟩ rfl rfl fun _ => rfl
  mark_buffs _ _ _ := rfl

end Marking

/-- A treatment that takes no vitality. -/
inductive Tending
  | heal (amount : Int32)
  | mark (m : Marking)

/-- What a step does to one unit. -/
inductive Treatment
  | tend (t : Tending)
  | damage (amount : Int32)
  | modify (stat : Stat) (delta : Int32) (duration : Duration)

/-- What comes of tending a unit in a turn. -/
def Tending.treat (turn : UInt32) (u : BoardUnit) : Tending → Except Fault Outcome
  | heal amount => do
      let (healed, gain) ← u.heal amount
      return { unit? := healed, remark? := " recupera " ++ toString gain ++ " VIT" }
  | mark m => return m.mark turn u

/-- The unit after it was tended in a turn. -/
def Tending.change (turn : UInt32) (t : Tending) (u : BoardUnit) : Except Fault BoardUnit := do
  return (← t.treat turn u).unit?.getD u

namespace Treatment

/-- What comes of treating a unit in a turn.  Auras leave no remark. -/
def treat (turn : UInt32) (u : BoardUnit) : Treatment → Except Fault Outcome
  | tend t => t.treat turn u
  | damage amount => do
      let hurt ← u.takeDamage amount
      return { unit? := hurt, remark? := " subisce " ++ toString amount ++ " danni" }
  | modify stat delta duration => do
      let changed ← u.addBuff stat delta duration
      let remark := " " ++ stat.label ++ " " ++ signedText delta
      return { unit? := changed, remark? := if duration = .aura then none else remark }

/-- A treatment that can take the last vitality of a unit, so that a sweep follows. -/
def wounds : Treatment → Bool
  | tend _ => false
  | damage _ => true
  | modify stat delta _ => stat = .vitality ∧ delta < 0

end Treatment

variable {turn : UInt32} {u v : BoardUnit} {o : Outcome}

/-- A unit that is tended undergoes something. -/
theorem Tending.undergoes {t : Tending} (h : t.treat turn u = .ok o) (hv : o.unit? = some v) :
  u.Undergoes v
  := by
  cases t with
  | heal amount =>
    obtain ⟨⟨healed, gain⟩, hheal, h⟩ := bind_eq_ok.mp h
    cases h
    cases hv
    exact .heal hheal
  | mark m =>
    cases h
    exact (m.marked hv).undergoes

/-- So it does if nothing comes of the tending. -/
theorem Tending.change_undergoes {t : Tending} (h : t.change turn u = .ok v) :
  u.Undergoes v
  := by
  obtain ⟨o, ho, h⟩ := bind_eq_ok.mp h
  cases h
  cases hv : o.unit? with
  | none => exact .mark (.refl u) rfl rfl
  | some v => exact t.undergoes ho hv

/-- A unit that is treated undergoes something. -/
theorem Treatment.undergoes {t : Treatment} (h : t.treat turn u = .ok o)
    (hv : o.unit? = some v) :
  u.Undergoes v
  := by
  cases t with
  | tend t => exact t.undergoes h hv
  | damage amount =>
    obtain ⟨hurt, hhurt, h⟩ := bind_eq_ok.mp h
    cases h
    cases hv
    exact .damage hhurt
  | modify stat delta duration =>
    obtain ⟨changed, hchanged, h⟩ := bind_eq_ok.mp h
    cases h
    cases hv
    exact .modify hchanged

/-- A treatment that wounds always makes something of the unit. -/
theorem Treatment.exists_unit_of_wounds {t : Treatment} (hwounds : t.wounds)
    (h : t.treat turn u = .ok o) :
  ∃ v, o.unit? = some v
  := by
  cases t with
  | tend t => cases hwounds
  | damage amount =>
    obtain ⟨hurt, -, h⟩ := bind_eq_ok.mp h
    cases h
    exact ⟨hurt, rfl⟩
  | modify stat delta duration =>
    obtain ⟨changed, -, h⟩ := bind_eq_ok.mp h
    cases h
    exact ⟨changed, rfl⟩

end CardBattle
