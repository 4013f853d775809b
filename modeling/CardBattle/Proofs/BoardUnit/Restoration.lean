import CardBattle.BoardUnit.Codec
import CardBattle.Proofs.Json.Lawful

/-!
# Reading back a unit

A unit is read back from what it is written as, with its statuses, its buffs, its flags and
all else it has, if the factors of its attack modifiers are finite.  A factor that is not is
written as `null`, which cannot be read (`read_modifier_fails`).
-/

namespace CardBattle

open Json (Fields FieldsReorder LawfulCodec Leniency Members NeverNull ReadFault Reading Restored
  defaulted_ok encode lawful_ofNames neverNull_ofNames optional_ok readsAs_object required_ok
  restored restored_float restored_list under)

instance : LawfulCodec Stat := lawful_ofNames (by rintro (_ | _ | _ | _) <;> rfl)

instance : LawfulCodec Duration := lawful_ofNames (by rintro (_ | _ | _) <;> rfl)

instance : LawfulCodec Lane := lawful_ofNames (by rintro (_ | _) <;> rfl)

instance : LawfulCodec Reach := lawful_ofNames (by rintro (_ | _ | _) <;> rfl)

instance : NeverNull Reach := neverNull_ofNames _ _

instance : LawfulCodec Uid where
  restored uid := by
    intro leniency v hv
    cases hv
    have hread := restored uid.number {} _ (.refl _)
    exact congrArg (Except.map Uid.mk) hread

instance : NeverNull Uid where
  encode_ne_null _ h := by cases h

instance : LawfulCodec Status where
  restored s := by
    apply readsAs_object
    intro leniency fields h
    rw [required_ok "name" h (by simp) (restored s.name),
      optional_ok "meta" h (by simp) (restored s.detail)]
    rfl

instance : LawfulCodec Buff where
  restored b := by
    apply readsAs_object
    intro leniency fields h
    rw [required_ok "stat" h rfl (restored b.stat), required_ok "delta" h rfl (restored b.delta),
      required_ok "expiry" h rfl (restored b.expiry)]
    rfl

/-! ### Attack modifiers -/

/-- A boost is read from fields among which its own are. -/
theorem Boost.ofFields_ok {b : Boost} {leniency : Leniency} {fields fields' : Fields}
    (hfinite : b.impactFactor.isFinite) (h : FieldsReorder fields fields')
    (hown : ∀ f ∈ b.toFields, under [f.1] fields = [f.2]) :
  Boost.ofFields (.ofFields leniency fields') = .value b
  := by
  simp only [Boost.toFields, List.forall_mem_cons, List.not_mem_nil] at hown
  obtain ⟨hfactor, hbonus, hignores, hignored, honly, -⟩ := hown
  rw [Boost.ofFields, defaulted_ok "impMultiplier" h hfactor (restored_float hfinite),
    defaulted_ok "impBonus" h hbonus (restored _),
    defaulted_ok "ignoreDef" h hignores (restored _),
    defaulted_ok "ignoreDefAmount" h hignored (restored _),
    defaulted_ok "thisAttackOnly" h honly (restored _)]
  rfl

/-- An attack modifier is restored if its factor is finite. -/
theorem restored_modifier {m : AttackModifier} (hfinite : m.impactFactor.isFinite) :
  Restored m
  := by
  apply readsAs_object
  intro leniency fields h
  rw [Boost.ofFields_ok hfinite h (by simp [Boost.toFields]),
    defaulted_ok "consumed" h rfl (restored _)]
  rfl

/-- An attack modifier whose factor is not finite is not read back. -/
theorem read_modifier_fails {m : AttackModifier} (h : ¬m.impactFactor.isFinite) :
  (Json.read (encode m) : Except ReadFault AttackModifier) = .error .shape
  := by
  have hnull : encode m.impactFactor = .null := if_neg h
  have hfactor : (Members.ofFields {} (m.toFields ++ [("consumed", encode m.consumed)])).defaulted
      "impMultiplier" (1.0 : Float) = .fault 0 .shape := by
    rw [Boost.toFields, hnull]
    rfl
  have hboost : Boost.ofFields (.ofFields {} (m.toFields ++ [("consumed", encode m.consumed)]))
      = .fault 0 .shape := by
    simp only [Boost.ofFields, hfactor, Reading.map_fault, Reading.fault_zero_seq]
  change ((fun a _ => a)
    <$> (AttackModifier.mk <$> Boost.ofFields (.ofFields {} (m.toFields ++ _)) <*> _)
    <*> _).result = _
  simp only [hboost, Reading.map_fault, Reading.fault_zero_seq]
  rfl

/-! ### Units -/

/-- The factors of the attack modifiers of the unit are finite. -/
def BoardUnit.HasFiniteFactors (u : BoardUnit) : Prop :=
  ∀ m ∈ u.modifiers, m.impactFactor.isFinite

instance (u : BoardUnit) : Decidable u.HasFiniteFactors :=
  inferInstanceAs (Decidable (∀ m ∈ u.modifiers, m.impactFactor.isFinite))

instance : NeverNull BoardUnit where
  encode_ne_null _ h := by cases h

/-- A unit is restored if the factors of its attack modifiers are finite. -/
theorem restored_unit {u : BoardUnit} (hfinite : u.HasFiniteFactors) :
  Restored u
  := by
  have hmodifiers : Restored u.modifiers :=
    restored_list fun m hm => restored_modifier (hfinite m hm)
  apply readsAs_object
  intro leniency fields h
  rw [required_ok "uid" h (by simp) (restored u.uid),
    required_ok "cardId" h (by simp) (restored u.cardId),
    required_ok "owner" h (by simp) (restored u.owner),
    required_ok "lane" h (by simp) (restored u.cell.lane),
    required_ok "column" h (by simp) (restored u.cell.column),
    required_ok "vit" h (by simp) (restored u.vitality),
    required_ok "vitMax" h (by simp) (restored u.vitalityMax),
    required_ok "imp" h (by simp) (restored u.impact),
    required_ok "def" h (by simp) (restored u.defence),
    required_ok "vel" h (by simp) (restored u.velocity),
    defaulted_ok "statuses" h (by simp) (restored u.statuses),
    defaulted_ok "statusImmunities" h (by simp) (restored u.immunities),
    defaulted_ok "cooldowns" h (by simp) (restored u.cooldowns),
    defaulted_ok "usesRemaining" h (by simp) (restored u.usesLeft),
    defaulted_ok "attackModifiers" h (by simp) hmodifiers,
    defaulted_ok "flags" h (by simp) (restored u.flags),
    defaulted_ok "temporaryBuffs" h (by simp) (restored u.buffs),
    defaulted_ok "attackedThisTurn" h (by simp) (restored u.hasAttacked),
    defaulted_ok "summonedThisTurn" h (by simp) (restored u.isNew),
    optional_ok "backlineAttack" h (by simp) (restored u.reach),
    defaulted_ok "untargetableByEnemyAbilities" h (by simp) (restored u.isUntargetable),
    optional_ok "preventActiveUntil" h (by simp) (restored u.preventedUntil)]
  rfl

end CardBattle
