import CardBattle.Proofs.Action.Soundness
import CardBattle.Session

/-!
# Sessions hold sound battles only

A session is reachable when it has come from a new one, or from one that begins with a given
battle, by actions, undoing and replacing in any order.  The battle in play is never corrupt
in a reachable session, and neither is any battle to which an action can be undone.
-/

namespace CardBattle

open Change

/-- The sessions that can come about under some rules. -/
inductive Session.Reachable (rules : Ruleset) : Session → Prop
  | start (seed : UInt64) : Reachable rules (.start rules seed)
  | playtest (seed : UInt64) : Reachable rules (.playtest rules seed)
  | ofBattle {b : Battle} {s : Session} (h : Session.ofBattle rules b = .ok s) :
      Reachable rules s
  | apply {s s' : Session} {action : Action} {resolution : Resolution}
      (hs : Reachable rules s) (h : s.apply action = .ok (resolution, s')) : Reachable rules s'
  | applyText {s s' : Session} {text : String} {resolution : Resolution}
      (hs : Reachable rules s) (h : s.applyText text = .ok (resolution, s')) :
      Reachable rules s'
  | undo {s s' : Session} (hs : Reachable rules s) (h : s.undo = .ok s') : Reachable rules s'
  | replace {s s' : Session} {b : Battle} (hs : Reachable rules s)
      (h : s.replace b = .ok s') : Reachable rules s'

/-- Boards without units are in order. -/
theorem Battle.sound_of_empty {b : Battle} (hactive : b.activePlayer ≤ 1)
    (h0 : b.side0.board = ∅) (h1 : b.side1.board = ∅) :
  b.Sound
  := by
  have hunits : b.units = [] := by
    rw [units, h0, h1]
    rfl
  constructor
  · use hactive, h0 ▸ Board.arranged_empty 0, h1 ▸ Board.arranged_empty 1
    · rw [hunits]
      apply List.nodup_nil
    · rw [hunits]
      simp
  · rw [hunits]
    simp

namespace Session

/-- The battle in play and the battles of the history are sound. -/
structure Sound (s : Session) : Prop where
  battle : s.battle.Sound
  history : ∀ b ∈ s.history, b.Sound

variable {rules : Ruleset} {s s' : Session}

/-- Every battle that is remembered is the new one or was remembered before. -/
theorem mem_remember {depth : Nat} {b c : Battle} {history : List Battle}
    (h : c ∈ remember depth b history) :
  c = b ∨ c ∈ history
  := by
  dsimp only [remember] at h
  have hmem : c ∈ b :: history := by
    split at h
    · apply List.dropLast_subset _ h
    · apply h
  apply List.mem_cons.mp hmem

theorem Sound.apply {action : Action} {resolution : Resolution} (hs : s.Sound)
    (h : s.apply action = .ok (resolution, s')) :
  s'.Sound
  := by
  rw [Session.apply] at h
  split at h
  · cases h
  · next found hfound =>
    obtain ⟨-, rfl⟩ := Prod.mk.inj (Except.ok.inj h)
    constructor
    · apply Ruleset.resolve_sound hfound
    · intro b hb
      rcases mem_remember hb with rfl | hb
      · apply hs.battle
      · apply hs.history b hb

theorem Sound.applyText {text : String} {resolution : Resolution} (hs : s.Sound)
    (h : s.applyText text = .ok (resolution, s')) :
  s'.Sound
  := by
  rw [Session.applyText] at h
  split at h
  · cases h
  · apply hs.apply h

theorem Sound.undo (hs : s.Sound) (h : s.undo = .ok s') :
  s'.Sound
  := by
  rw [Session.undo] at h
  have hhistory := hs.history
  split at h
  · cases h
  · next b history hs' =>
    obtain rfl := Except.ok.inj h
    rw [hs'] at hhistory
    constructor
    · apply hhistory b (by simp)
    · intro c hc
      apply hhistory c (by simp [hc])

theorem sound_of_ofBattle {b : Battle} (h : ofBattle rules b = .ok s) :
  s.Sound
  := by
  rw [ofBattle] at h
  split at h
  · next hb =>
    obtain rfl := Except.ok.inj h
    constructor
    · apply Battle.corruption?_eq_none_iff.mp hb
    · simp
  · cases h

theorem sound_of_replace {b : Battle} (h : s.replace b = .ok s') :
  s'.Sound
  := by
  rw [replace] at h
  split at h
  · next hb =>
    obtain rfl := Except.ok.inj h
    constructor
    · apply Battle.corruption?_eq_none_iff.mp hb
    · simp
  · cases h

/-- Dealing cards leaves the boards as they are. -/
theorem dealTo_board (side : Side) (cards : List String) :
  (Battle.dealTo side cards).board = side.board
  := by
  rw [Battle.dealTo]
  split <;> rfl

/-- Every reachable session holds sound battles only. -/
theorem Reachable.sound (h : Reachable rules s) :
  s.Sound
  := by
  induction h with
  | start seed =>
    constructor
    · apply Battle.sound_of_empty (by decide : (0 : UInt8) ≤ 1) rfl rfl
    · intro b hb
      cases hb
  | playtest seed =>
    constructor
    · apply Battle.sound_of_empty (by decide : (0 : UInt8) ≤ 1)
      · apply dealTo_board
      · apply dealTo_board
    · intro b hb
      cases hb
  | ofBattle h => apply sound_of_ofBattle h
  | apply _ h ih => apply ih.apply h
  | applyText _ h ih => apply ih.applyText h
  | undo _ h ih => apply ih.undo h
  | replace _ h _ => apply sound_of_replace h

end Session

/-- No accepted action and nothing that a battle is put through in the course of one corrupts
a battle: no script, whoever runs it, no event, no activation, no refresh and no sweep.
Hence no battle of a reachable session is corrupt. -/
theorem integrity_preserved :
  (∀ (rules : Ruleset) (b : Battle), b.corruption? = none →
    (∀ action resolution, rules.resolve b action = .ok resolution →
      resolution.battle.corruption? = none)
    ∧ (∀ actor event script b', (rules.run actor event script).Leads b b' →
      b'.corruption? = none)
    ∧ (∀ event b', (rules.emit event).Leads b b' → b'.corruption? = none)
    ∧ (∀ uid ability event b', (rules.runActivation uid ability event).Leads b b' →
      b'.corruption? = none)
    ∧ (∀ player first second b', (rules.refresh player first second).Leads b b' →
      b'.corruption? = none)
    ∧ (∀ source depth b', (rules.sweep source depth).Leads b b' → b'.corruption? = none))
  ∧ ∀ (rules : Ruleset) (s : Session), Session.Reachable rules s →
    s.battle.corruption? = none ∧ ∀ b ∈ s.history, b.corruption? = none
  := by
  simp only [Battle.corruption?_eq_none_iff]
  constructor
  · intro rules b hb
    refine ⟨?_, ?_, ?_, ?_, ?_, ?_⟩
    · intro action resolution h
      apply Ruleset.resolve_sound h
    · intro actor event script b' h
      apply Ruleset.run_sound hb h
    · intro event b' h
      apply Ruleset.emit_sound hb h
    · intro uid ability event b' h
      apply Ruleset.runActivation_sound hb h
    · intro player first second b' h
      apply Ruleset.refresh_sound hb.toCoherent h
    · intro source depth b' h
      apply Ruleset.sweep_sound hb.toCoherent h
  · intro rules s h
    use h.sound.battle, h.sound.history

/-- After a deadly attack nothing is corrupt, and neither is anything at a beginning. -/
theorem integrity_preserved_duel :
  let rules : Ruleset := { catalog := ⟨[], List.nodup_nil⟩ }
  (∃ resolution, rules.resolve .duel (.attack 0 ⟨1⟩ ⟨2⟩) = .ok resolution
    ∧ resolution.battle.corruption? = none)
  ∧ (Session.start rules 7).battle.corruption? = none
  := by
  intro rules
  have hduel : Battle.duel.corruption? = none := by decide
  have haccepted : (rules.resolve .duel (.attack 0 ⟨1⟩ ⟨2⟩)).isOk := by decide
  constructor
  · cases h : rules.resolve .duel (.attack 0 ⟨1⟩ ⟨2⟩) with
    | error stop =>
      rw [h] at haccepted
      cases haccepted
    | ok resolution =>
      use resolution, rfl
      apply (integrity_preserved.1 rules .duel hduel).1 _ _ h
  · apply (integrity_preserved.2 rules _ (.start 7)).1

end CardBattle
