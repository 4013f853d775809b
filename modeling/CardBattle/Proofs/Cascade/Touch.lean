import CardBattle.Cascade.Script
import CardBattle.Proofs.BoardUnit.Alteration
import CardBattle.Proofs.Side.Cards
import Mathlib.Logic.Relation

/-!
# Touches

A battle is touched when a line is noted in the log, when a unit is altered, when cards are
shifted between the piles of a player, or when two units exchange their cells.  No unit
enters or leaves the boards by a touch.  How a unit may be altered is a parameter.
-/

namespace CardBattle

open Relation (ReflTransGen)

namespace Battle

/-- Nothing but the log differs, and lines have come only to its end. -/
structure Logs (b b' : Battle) : Prop where
  eq : b' = { b with log := b'.log }
  log : b.log <+: b'.log

variable {b b' b'' : Battle}

theorem Logs.refl (b : Battle) :
  b.Logs b
  := ⟨rfl, List.prefix_rfl⟩

theorem Logs.trans (h : b.Logs b') (h' : b'.Logs b'') :
  b.Logs b''
  := by
  constructor
  · rw [h'.eq, h.eq]
  · apply h.log.trans h'.log

theorem record_logs (b : Battle) (line : String) :
  b.Logs (b.record line)
  := ⟨rfl, List.prefix_append _ _⟩

theorem foldl_record_logs {α : Type} (line : α → String) (l : List α) (b : Battle) :
  b.Logs (l.foldl (fun b a => b.record (line a)) b)
  := by
  induction l generalizing b with
  | nil => apply Logs.refl
  | cons a rest ih => exact (b.record_logs (line a)).trans (ih _)

end Battle

/-- A small change of a battle, in which units are altered only as `A` allows. -/
inductive Touch (A : BoardUnit → BoardUnit → Prop) : Battle → Battle → Prop
  | note {b b' : Battle} (h : b.Logs b') : Touch A b b'
  | alter {b : Battle} {u v : BoardUnit} (hu : b.find? u.uid = some u) (h : A u v) :
      Touch A b (b.replace v)
  | shift {b : Battle} {player : UInt8} {s t : Side} (hs : b.side? player = some s)
      (h : s.Shifts t) : Touch A b (b.setSide player t)
  | swap {b b' : Battle} {rules : Ruleset} {actor : BoardUnit} {event : Event}
      {first second : UnitRef}
      (h : (stepSwap rules actor event first second).Leads b b') : Touch A b b'

/-- Touches one after another. -/
abbrev Touches (A : BoardUnit → BoardUnit → Prop) : Battle → Battle → Prop :=
  ReflTransGen (Touch A)

/-- A touch is one too where more alterations are allowed. -/
theorem Touch.mono {A A' : BoardUnit → BoardUnit → Prop} (hA : ∀ u v, A u v → A' u v)
    {b b' : Battle} (h : Touch A b b') :
  Touch A' b b'
  := by
  cases h with
  | note h => apply Touch.note h
  | alter hu h => apply Touch.alter hu (hA _ _ h)
  | shift hs h => apply Touch.shift hs h
  | swap h => apply Touch.swap h

namespace BoardUnit

variable {allowed : Stat → Prop} {u v : BoardUnit}

/-- An alteration that takes no unit its life. -/
structure Spares (allowed : Stat → Prop) (u v : BoardUnit) : Prop where
  alters : u.Alters allowed v
  alive : u.Bounded → u.isAlive → v.isAlive

/-- A mark takes no unit its life. -/
theorem Marks.alive (h : u.Marks v) (_ : u.Bounded) (halive : u.isAlive) :
  v.isAlive
  := by
  rw [h.isAlive_eq]
  apply halive

end BoardUnit

/-- A unit that a reference names is found by its uid. -/
theorem find?_of_resolve? {ref : UnitRef} {b : Battle} {actor u : BoardUnit} {event : Event}
    (h : ref.resolve? b actor event = some u) :
  b.find? u.uid = some u
  := by
  obtain ⟨uid, -, hfind⟩ := Option.bind_eq_some_iff.mp h
  obtain rfl : u.uid = uid := by simpa using List.find?_some hfind
  apply hfind

end CardBattle
