import CardBattle.Proofs.Cascade.Soundness

/-!
# What cascades leave alone

No script reaches what actions keep account of: the turn and whose it is, the first attacker,
the uids issued, the abilities used, and for every unit whether it has attacked, its
cooldowns and the uses that it has left (`Battle.Keeps`).  Cards leave a deck from its top
only, and the discard piles, the log and the attack modifiers of a unit grow only at their
ends.  Every move keeps a battle so, and with the moves a whole cascade does.
-/

namespace CardBattle

open Relation (ReflTransGen)
open Change

namespace BoardUnit

/-- The unit keeps its uid, card and owner, what it has done and what it may still do in its
turn; attack modifiers come only behind those that it had. -/
structure Keeps (u v : BoardUnit) : Prop extends Persists u v where
  cooldowns : v.cooldowns = u.cooldowns
  usesLeft : v.usesLeft = u.usesLeft
  hasAttacked : v.hasAttacked = u.hasAttacked
  isNew : v.isNew = u.isNew
  modifiers : u.modifiers <+: v.modifiers

variable {u v w : BoardUnit} {allowed : Stat → Prop}

theorem Keeps.refl (u : BoardUnit) :
  u.Keeps u
  := ⟨.refl u, rfl, rfl, rfl, rfl, List.prefix_rfl⟩

theorem Keeps.trans (huv : u.Keeps v) (hvw : v.Keeps w) :
  u.Keeps w
  := by
  constructor
  · apply huv.toPersists.trans hvw.toPersists
  · rw [hvw.cooldowns, huv.cooldowns]
  · rw [hvw.usesLeft, huv.usesLeft]
  · rw [hvw.hasAttacked, huv.hasAttacked]
  · rw [hvw.isNew, huv.isNew]
  · apply huv.modifiers.trans hvw.modifiers

theorem keeps_elsewhere (u : BoardUnit) (cell : Cell) :
  u.Keeps { u with cell }
  := ⟨⟨rfl, rfl, rfl⟩, rfl, rfl, rfl, rfl, List.prefix_rfl⟩

theorem Restats.keeps (h : u.Restats v) :
  u.Keeps v
  := by
  rw [h]
  exact ⟨⟨rfl, rfl, rfl⟩, rfl, rfl, rfl, rfl, List.prefix_rfl⟩

theorem Marks.keeps (h : u.Marks v) :
  u.Keeps v
  := by
  have hmodifiers := h.modifiers.leading
  rw [h.eq]
  exact ⟨⟨rfl, rfl, rfl⟩, rfl, rfl, rfl, rfl, hmodifiers⟩

/-- A unit that is altered keeps account of its turn. -/
theorem Alters.keeps (h : u.Alters allowed v) :
  u.Keeps v
  := by
  cases h with
  | damage h => apply (takeDamage_restats h).keeps
  | heal h => apply (heal_restats h).keeps
  | modify _ h => apply (addBuff_restats h).keeps
  | mark h => apply h.keeps

end BoardUnit

namespace Battle

/-- Only the cards, the log and the units differ: cards leave the decks from their top, the
discard piles and the log grow at their ends, and every unit was there before and has kept
account of its turn. -/
structure Keeps (b b' : Battle) : Prop where
  version : b'.version = b.version
  seed : b'.seed = b.seed
  turn : b'.turn = b.turn
  activePlayer : b'.activePlayer = b.activePlayer
  firstAttacker : b'.firstAttacker = b.firstAttacker
  uids : b'.uids = b.uids
  side0 : b.side0.Keeps b'.side0
  side1 : b.side1.Keeps b'.side1
  log : b.log <+: b'.log
  units : ∀ v ∈ b'.units, ∃ u ∈ b.units, u.Keeps v

variable {b b' b'' : Battle} {player : UInt8}

theorem Keeps.refl (b : Battle) :
  b.Keeps b
  := ⟨rfl, rfl, rfl, rfl, rfl, rfl, .refl _, .refl _, List.prefix_rfl, fun u hu => ⟨u, hu, .refl u⟩⟩

theorem Keeps.trans (h : b.Keeps b') (h' : b'.Keeps b'') :
  b.Keeps b''
  := by
  constructor
  · rw [h'.version, h.version]
  · rw [h'.seed, h.seed]
  · rw [h'.turn, h.turn]
  · rw [h'.activePlayer, h.activePlayer]
  · rw [h'.firstAttacker, h.firstAttacker]
  · rw [h'.uids, h.uids]
  · apply h.side0.trans h'.side0
  · apply h.side1.trans h'.side1
  · apply h.log.trans h'.log
  · intro w hw
    obtain ⟨v, hv, hvw⟩ := h'.units w hw
    obtain ⟨u, hu, huv⟩ := h.units v hv
    exact ⟨u, hu, huv.trans hvw⟩

theorem Logs.keeps (h : b.Logs b') :
  b.Keeps b'
  := by
  have hlog := h.log
  rw [h.eq]
  exact ⟨rfl, rfl, rfl, rfl, rfl, rfl, .refl _, .refl _, hlog, fun u hu => ⟨u, hu, .refl u⟩⟩

/-- A side is set that keeps its record, and its units are from before. -/
theorem keeps_setSide {s t : Side} (hs : b.side? player = some s) (h : s.Keeps t)
    (hunits : ∀ v ∈ (b.setSide player t).units, ∃ u ∈ b.units, u.Keeps v) :
  b.Keeps (b.setSide player t)
  := by
  obtain ⟨rfl, rfl⟩ | ⟨rfl, rfl⟩ := side?_cases hs
  · exact ⟨rfl, rfl, rfl, rfl, rfl, rfl, h, .refl _, List.prefix_rfl, hunits⟩
  · exact ⟨rfl, rfl, rfl, rfl, rfl, rfl, .refl _, h, List.prefix_rfl, hunits⟩

theorem keeps_setBoard {s : Side} {board : Board} (hs : b.side? player = some s)
    (hunits : ∀ v ∈ (b.setBoard player board).units, ∃ u ∈ b.units, u.Keeps v) :
  b.Keeps (b.setBoard player board)
  := by
  rw [← setSide_board hs] at *
  apply keeps_setSide hs _ hunits
  exact ⟨rfl, List.prefix_rfl, List.prefix_rfl⟩

/-- All units are changed, and each keeps account of its turn. -/
theorem keeps_changeAll {f : BoardUnit → Except Fault BoardUnit}
    (hf : ∀ u v, f u = .ok v → u.Keeps v) (h : b.changeAll f = .ok b') :
  b.Keeps b'
  := by
  have hunits := changeAll_units h
  obtain ⟨board0, -, h⟩ := bind_eq_ok.mp h
  obtain ⟨board1, -, h⟩ := bind_eq_ok.mp h
  obtain rfl := pure_eq_ok.mp h
  refine ⟨rfl, rfl, rfl, rfl, rfl, rfl, ?_, ?_, List.prefix_rfl, ?_⟩
  · exact ⟨rfl, List.prefix_rfl, List.prefix_rfl⟩
  · exact ⟨rfl, List.prefix_rfl, List.prefix_rfl⟩
  · intro v hv
    obtain ⟨i, hi⟩ := List.mem_iff_getElem?.mp hv
    obtain ⟨u, hu, huv⟩ := Board.getElem?_of_forall hunits hi
    exact ⟨u, List.mem_of_getElem? hu, hf u v huv⟩

/-- A unit that is found by its uid after a change was found by it before. -/
theorem Keeps.find? (hb : b.Coherent) (h : b.Keeps b') {uid : Uid} {v : BoardUnit}
    (hv : b'.find? uid = some v) :
  ∃ u, b.find? uid = some u ∧ u.Keeps v
  := by
  obtain ⟨u, hu, huv⟩ := h.units v (mem_of_find? hv)
  refine ⟨u, ?_, huv⟩
  rw [← find?_uid hv, huv.uid]
  apply find?_of_mem hb.distinct hu

/-! ### Moves -/

theorem Rearranges.keeps (h : b.Rearranges b') :
  b.Keeps b'
  := by
  have hunits : ∀ v ∈ b'.units, ∃ u ∈ b.units, u.Keeps v := by
    intro v hv
    obtain ⟨u, hu, hsame⟩ := h.exists_unit hv
    refine ⟨u, hu, ?_⟩
    rw [hsame]
    apply u.keeps_elsewhere
  obtain ⟨player, side, board, hside, -, rfl⟩ := h.board
  apply keeps_setBoard hside hunits

/-- A touch keeps account of the turn when the units that are altered do. -/
theorem Coherent.touch_keeps {A : BoardUnit → BoardUnit → Prop} (hb : b.Coherent)
    (hA : ∀ u v, A u v → u.Keeps v) (h : Touch A b b') :
  b.Keeps b'
  := by
  cases h with
  | note h => apply h.keeps
  | @alter u v hu h =>
    have huv := hA u v h
    obtain ⟨side, i, board, hside, hturns, hreplace⟩ := hb.replace_turns hu huv.uid
    rw [hreplace]
    apply keeps_setBoard hside
    obtain ⟨l, r, hold, hnew⟩ := units_turns hside hturns
    intro w hw
    rw [hnew] at hw
    rw [hold]
    simp only [Option.toList_some, List.mem_append, List.mem_singleton] at hw ⊢
    obtain (hw | rfl) | hw := hw
    · exact ⟨w, .inl (.inl hw), .refl w⟩
    · exact ⟨u, .inl (.inr rfl), huv⟩
    · exact ⟨w, .inr hw, .refl w⟩
  | shift hs h =>
    apply keeps_setSide hs h.toKeeps
    rw [units_shift hs h.board]
    exact fun u hu => ⟨u, hu, .refl u⟩
  | swap h =>
    obtain rfl | ⟨m, hm, -, hlogs⟩ := stepSwap_leads hb h
    · apply Keeps.refl
    · apply hm.keeps.trans hlogs.keeps

/-- The card of a unit that departs comes to the end of the discard pile. -/
theorem Departs.keeps {gone : BoardUnit} (h : Departs gone b b') :
  b.Keeps b'
  := by
  obtain ⟨side, i, board, line, hside, hturns, rfl⟩ := h.leaves
  apply Keeps.trans _ (record_logs _ line).keeps
  apply keeps_setSide hside
  · exact ⟨rfl, List.prefix_rfl, List.prefix_append _ _⟩
  · intro v hv
    rw [units_setSide] at hv
    exact ⟨v, mem_of_taken hside hturns hv, .refl v⟩

/-- Every move keeps account of the turn. -/
theorem Coherent.move_keeps (hb : b.Coherent) (h : Move b b') :
  b.Keeps b'
  := by
  cases h with
  | touch h => apply hb.touch_keeps (fun _ _ halters => halters.keeps) h
  | depart h => apply (hb.departs h).2.keeps

theorem Coherent.moves_keep (hb : b.Coherent) (h : Moves b b') :
  b.Keeps b'
  := by
  induction h with
  | refl => apply Keeps.refl
  | tail hmoves hmove ih => apply ih.trans ((hb.moves hmoves).move_keeps hmove)

/-- No move brings a unit onto the boards. -/
theorem Coherent.moves_absent (hb : b.Coherent) (h : Moves b b') {uid : Uid}
    (habsent : b.find? uid = none) :
  b'.find? uid = none
  := by
  apply Option.eq_none_iff_forall_ne_some.mpr
  intro v hv
  obtain ⟨u, hu, -⟩ := (hb.moves_keep h).find? hb hv
  rw [habsent] at hu
  cases hu

end Battle

/-- A refresh keeps account of the turn. -/
theorem Ruleset.refresh_keeps {rules : Ruleset} {b b' : Battle} (hb : b.Coherent)
    {player : UInt8} {first second : Trigger}
    (h : (rules.refresh player first second).Leads b b') :
  b.Keeps b'
  := by
  obtain ⟨lacks, m₁, m₂, m₃, ⟨hexpire, hm₁⟩, ⟨-, hmoves, -⟩, ⟨hkeep, hm₃⟩, hsweep⟩ :=
    refresh_coherent hb h
  have hexpired : b.Keeps m₁ := by
    apply Battle.keeps_changeAll _ hexpire
    intro u v hv
    apply (BoardUnit.expireBuffs_restats hv).keeps
  have hkept : m₂.Keeps m₃ := by
    apply Battle.keeps_changeAll _ hkeep
    intro u v hv
    obtain rfl := Except.ok.inj hv
    apply (BoardUnit.keepLack_restats lacks u).keeps
  apply hexpired.trans
  apply (hm₁.moves_keep hmoves).trans
  apply hkept.trans
  apply hm₃.moves_keep (rules.sweep_moves hsweep)

/-- Scripts, events, activations, refreshes and sweeps do not reach what actions keep account
of, whatever they do and however deep they are nested. -/
theorem bookkeeping_kept {rules : Ruleset} {b : Battle} (hb : b.corruption? = none) :
  (∀ actor event script b', (rules.run actor event script).Leads b b' → b.Keeps b')
  ∧ (∀ event b', (rules.emit event).Leads b b' → b.Keeps b')
  ∧ (∀ uid ability event b', (rules.runActivation uid ability event).Leads b b' → b.Keeps b')
  ∧ (∀ player first second b', (rules.refresh player first second).Leads b b' → b.Keeps b')
  ∧ ∀ source depth b', (rules.sweep source depth).Leads b b' → b.Keeps b'
  := by
  have hcoherent := (Battle.corruption?_eq_none_iff.mp hb).toCoherent
  refine ⟨?_, ?_, ?_, ?_, ?_⟩
  · intro actor event script b' h
    apply hcoherent.moves_keep (runScript_moves rules.emit_moves h)
  · intro event b' h
    apply hcoherent.moves_keep (rules.emit_moves _ _ _ h)
  · intro uid ability event b' h
    apply hcoherent.moves_keep (rules.runActivation_moves h)
  · intro player first second b' h
    apply Ruleset.refresh_keeps hcoherent h
  · intro source depth b' h
    apply hcoherent.moves_keep (rules.sweep_moves h)

/-- A script in which one unit of a duel takes the life of the other and draws a card. -/
theorem bookkeeping_kept_duel :
  let rules : Ruleset := { catalog := ⟨[], List.nodup_nil⟩ }
  let script : List Step :=
    [.branch (.countAtLeast {} 1) [.boostAttack .self {}, .damage (.uid 2) 9] [], .draw 1]
  Battle.duel.corruption? = none
    ∧ ∃ actor b', Battle.duel.find? ⟨1⟩ = some actor
      ∧ (rules.run actor { trigger := .onDeploy, player := 0 } script).Leads .duel b'
      ∧ b'.find? ⟨2⟩ = none
      ∧ Battle.duel.Keeps b'
  := by
  intro rules script
  have hduel : Battle.duel.corruption? = none := by decide
  have hfound : (Battle.duel.find? ⟨1⟩).isSome := by decide
  obtain ⟨actor, hactor⟩ := Option.isSome_iff_exists.mp hfound
  have hruns : ((Battle.duel.find? ⟨1⟩).bind fun actor =>
      (rules.run actor { trigger := .onDeploy, player := 0 } script .duel).toOption.map
        fun result => result.1.find? ⟨2⟩) = some none := by decide
  rw [hactor, Option.bind_some] at hruns
  use hduel
  cases hrun : rules.run actor { trigger := .onDeploy, player := 0 } script .duel with
  | error fault =>
    rw [hrun] at hruns
    cases hruns
  | ok result =>
    obtain ⟨b', r⟩ := result
    rw [hrun] at hruns
    refine ⟨actor, b', hactor, ⟨r, hrun⟩, Option.some.inj hruns, ?_⟩
    apply (bookkeeping_kept hduel).1 _ _ _ _ ⟨r, hrun⟩

end CardBattle
