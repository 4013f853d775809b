import CardBattle.Proofs.Cascade.Descent

/-!
# The incidents of a cascade

A finer account of what comes of an event, a script or a sweep than its moves give: in each
incident a unit undergoes one thing only, of those that steps do to units
(`BoardUnit.Undergoes`), or it departs.  A property of units that is kept in all of these, and
wherever a unit stands, is kept by the whole cascade (`Battle.Coherent.incidents_forall`).
-/

namespace CardBattle

open Relation (ReflTransGen)
open Change

/-- One incident of a cascade. -/
inductive Incident : Battle → Battle → Prop
  | touch {b b' : Battle} (h : Touch BoardUnit.Undergoes b b') : Incident b b'
  | depart {b b' : Battle} {owner : UInt8} {gone : BoardUnit}
      (h : b.removeFallen? = some (owner, gone, b')) : Incident b b'

/-- Incidents one after another. -/
abbrev Incidents : Battle → Battle → Prop :=
  ReflTransGen Incident

variable {rules : Ruleset} {emit : Event → Change} {actor : BoardUnit} {event : Event}
  {b b' : Battle} {u v : BoardUnit}

theorem Touch.incidents (h : Touch BoardUnit.Undergoes b b') :
  Incidents b b'
  := ReflTransGen.single (.touch h)

theorem Incident.move (h : Incident b b') :
  Move b b'
  := by
  cases h with
  | touch h => apply Move.touch (h.mono fun _ _ => BoardUnit.Undergoes.alters)
  | depart h => apply Move.depart h

theorem incidents_moves (h : Incidents b b') :
  Moves b b'
  := h.lift id fun _ _ => Incident.move

/-! ### Sweeps and scripts -/

/-- Changes made of incidents are so one after another. -/
theorem forEach_incidents {α : Type} {f : α → Change} {l : List α}
    (hf : ∀ a ∈ l, ∀ b b', (f a).Leads b b' → Incidents b b') (h : (forEach f l).Leads b b') :
  Incidents b b'
  := by
  apply forEach_keeps (P := Incidents b) _ .refl h
  intro a ha c c' hc hleads
  apply hc.trans (hf a ha c c' hleads)

section

variable (hemit : ∀ event b b', (emit event).Leads b b' → Incidents b b')

include hemit

theorem sweepUpTo_incidents {source : Option Uid} {depth : UInt32} {n : Nat} {b b' : Battle}
    (h : (sweepUpTo emit source depth n).Leads b b') :
  Incidents b b'
  := by
  induction n generalizing b with
  | zero => rw [leads_done.mp h]
  | succ n ih =>
    obtain ⟨-, rfl⟩ | ⟨owner, gone, m, m', hremove, hannounce, hrest⟩ := sweepUpTo_leads h
    · apply ReflTransGen.refl
    · apply ReflTransGen.head (.depart hremove)
      apply ReflTransGen.trans _ (ih hrest)
      apply forEach_incidents _ hannounce
      intro trigger _
      apply hemit

theorem sweepAfter_incidents (h : (sweepAfter emit actor event).Leads b b') :
  Incidents b b'
  := by
  obtain ⟨r, h⟩ := h
  obtain ⟨depth, -, h⟩ := bind_eq_ok.mp h
  apply sweepUpTo_incidents hemit ⟨r, h⟩

/-- A stroke of a script is made of incidents. -/
theorem Stroke.incidents {p : Step → Prop} (h : Stroke rules emit p actor event b b') :
  Incidents b b'
  := by
  cases h with
  | touch _ _ h => apply (h.mono fun _ _ hdoes => hdoes.1).incidents
  | wound _ _ hu hdoes hlogs hsweep =>
    apply ReflTransGen.head (.touch (.alter hu hdoes.1))
    apply ReflTransGen.head (.touch (.note hlogs))
    apply sweepAfter_incidents hemit hsweep

/-- A script is made of incidents. -/
theorem runScript_incidents (script : List Step)
    (h : (runScript rules emit actor event script).Leads b b') :
  Incidents b b'
  := by
  have hstrokes := runScript_strokes script (scriptAll_any script) h
  clear h
  induction hstrokes with
  | refl => apply ReflTransGen.refl
  | tail _ hstroke ih => apply ih.trans (hstroke.incidents hemit)

end

/-! ### Events -/

namespace Ruleset

theorem emitWithin_incidents {n : Nat} (h : (rules.emitWithin n event).Leads b b') :
  Incidents b b'
  := by
  induction n generalizing event b b' with
  | zero => rw [leads_done.mp h]
  | succ n ih =>
    apply broadcast_keeps (P := Incidents b) _ .refl h
    intro cardId block _ actor c c' hc hrun
    apply hc.trans (runScript_incidents (fun _ _ _ => ih) _ hrun)

/-- What comes of an event is made of incidents. -/
theorem emit_incidents (event : Event) (b b' : Battle) (h : (rules.emit event).Leads b b') :
  Incidents b b'
  := emitWithin_incidents h

/-- What comes of a sweep is made of incidents. -/
theorem sweep_incidents {source : Option Uid} {depth : UInt32}
    (h : (rules.sweep source depth).Leads b b') :
  Incidents b b'
  := by
  obtain ⟨r, h⟩ := h
  apply sweepUpTo_incidents rules.emit_incidents ⟨r, h⟩

/-- What comes of an activation is made of incidents. -/
theorem runActivation_incidents {uid : Uid} {ability : Ability}
    (h : (rules.runActivation uid ability event).Leads b b') :
  Incidents b b'
  := by
  apply runBlocks_keeps (P := Incidents b) _ .refl h
  intro block _ actor c c' hc hrun
  apply hc.trans (runScript_incidents rules.emit_incidents _ hrun)

end Ruleset

/-! ### What incidents keep -/

/-- A property of units that is kept whatever a step does to them, and wherever they stand. -/
structure BoardUnit.IsHereditary (P : BoardUnit → Prop) : Prop where
  undergoes : ∀ u v : BoardUnit, u.Undergoes v → P u → P v
  elsewhere : ∀ (u : BoardUnit) (cell : Cell), P u → P { u with cell }

namespace Battle

variable {P : BoardUnit → Prop}

/-- Incidents keep a property that is hereditary for all units. -/
theorem Coherent.incidents_forall (hP : BoardUnit.IsHereditary P) (hb : b.Coherent)
    (hunits : ∀ u ∈ b.units, P u) (h : Incidents b b') :
  ∀ u ∈ b'.units, P u
  := by
  induction h with
  | refl => apply hunits
  | tail hincidents hincident ih =>
    have hc := hb.moves (incidents_moves hincidents)
    cases hincident with
    | touch h =>
      apply hc.touch_forall (fun _ _ hundergoes => hundergoes.alters.endures) hP.undergoes
        hP.elsewhere ih h
    | depart h =>
      intro v hv
      apply ih v ((hc.departs h).2.subset_units hv)

end Battle

end CardBattle
