import CardBattle.Battle.Codec
import CardBattle.Proofs.BoardUnit.Restoration

/-!
# Reading back a battle

A battle is read back from what it is written as: the boards with their units, the cards of the
sides, the uses of abilities in the current turn, the log and the rest.  The fields that are
left out when there is nothing in them are read as absent again.  All that is asked for is that
the factors of the attack modifiers are finite.
-/

namespace CardBattle

open Json (LawfulCodec ReadsAs Restored defaulted_ok encode nextItem_bind optional_ok
  readsAs_items readsAs_object requiredAs_ok required_ok restored restored_option)

instance : LawfulCodec UidCounter where
  restored counter := by
    apply readsAs_object
    intro leniency fields h
    rw [required_ok "next" h rfl (restored counter.next)]
    rfl

instance : LawfulCodec Usage where
  restored usage := by
    apply readsAs_items
    intro leniency items h
    cases h with | cons huid h =>
    cases h with | cons hslot h =>
    cases h
    rw [List.map_cons, nextItem_bind (restored usage.uid) huid,
      List.map_cons, nextItem_bind (restored usage.slot) hslot]
    rfl

/-! ### Boards -/

/-- The factors of all attack modifiers on the board are finite. -/
def Board.HasFiniteFactors (b : Board) : Prop :=
  ∀ u ∈ b.units, u.HasFiniteFactors

/-- The cells of a lane are restored together. -/
theorem readsAs_lane (lane : LaneCells) (h : ∀ cell ∈ lane.cells, Restored cell) :
  ReadsAs LaneCells.ofInput (encode lane.cells) lane
  := by
  obtain ⟨cells, hlength⟩ := lane
  obtain ⟨left, middle, right, rfl⟩ := List.length_eq_three.mp hlength
  obtain ⟨hleft, h⟩ := List.forall_mem_cons.mp h
  obtain ⟨hmiddle, h⟩ := List.forall_mem_cons.mp h
  obtain ⟨hright, -⟩ := List.forall_mem_cons.mp h
  apply readsAs_items
  intro leniency items h
  cases h with | cons hleft' h =>
  cases h with | cons hmiddle' h =>
  cases h with | cons hright' h =>
  cases h
  rw [List.map_cons, nextItem_bind hleft hleft', List.map_cons, nextItem_bind hmiddle hmiddle',
    List.map_cons, nextItem_bind hright hright']
  rfl

theorem length_laneCells (b : Board) (lane : Lane) :
  (b.laneCells lane).length = columns
  := by
  cases lane with
  | front => rw [Board.laneCells, List.length_take, b.length_eq]; rfl
  | back => rw [Board.laneCells, List.length_drop, b.length_eq]; rfl

theorem mem_of_mem_laneCells {b : Board} {lane : Lane} {cell : Option BoardUnit}
    (h : cell ∈ b.laneCells lane) :
  cell ∈ b.cells
  := by
  cases lane with
  | front => exact List.mem_of_mem_take h
  | back => exact List.mem_of_mem_drop h

/-- A board is restored if the factors of the attack modifiers on it are finite. -/
theorem restored_board {b : Board} (hfinite : b.HasFiniteFactors) :
  Restored b
  := by
  have hlane : ∀ lane, ReadsAs LaneCells.ofInput (encode (b.laneCells lane))
      ⟨b.laneCells lane, length_laneCells b lane⟩ := by
    intro lane
    apply readsAs_lane ⟨b.laneCells lane, length_laneCells b lane⟩
    intro cell hcell
    apply restored_option
    rintro u rfl
    exact restored_unit (hfinite u (List.mem_filterMap.mpr ⟨_, mem_of_mem_laneCells hcell, rfl⟩))
  apply readsAs_object
  intro leniency fields h
  dsimp only
  rw [requiredAs_ok h rfl (hlane .front), requiredAs_ok h rfl (hlane .back)]
  have hcells : b.laneCells .front ++ b.laneCells .back = b.cells :=
    List.take_append_drop columns b.cells
  simp [Board.ofLanes, hcells]

/-! ### Sides and battles -/

theorem restored_side {s : Side} (hfinite : s.board.HasFiniteFactors) :
  Restored s
  := by
  apply readsAs_object
  intro leniency fields h
  rw [defaulted_ok "deck" h rfl (restored s.deck), defaulted_ok "hand" h rfl (restored s.hand),
    defaulted_ok "discard" h rfl (restored s.discard),
    defaulted_ok "board" h rfl (restored_board hfinite),
    defaulted_ok "perTurnUsage" h rfl (restored s.used)]
  rfl

theorem readsAs_sides {s s' : Side} (h : Restored s) (h' : Restored s') :
  ReadsAs Battle.readSides (encode [s, s']) (s, s')
  := by
  apply readsAs_items
  intro leniency items hitems
  cases hitems with | cons hs hitems =>
  cases hitems with | cons hs' hitems =>
  cases hitems
  rw [List.map_cons, nextItem_bind h hs, List.map_cons, nextItem_bind h' hs']
  rfl

/-- The factors of all attack modifiers in the battle are finite. -/
def Battle.HasFiniteFactors (b : Battle) : Prop :=
  ∀ u ∈ b.units, u.HasFiniteFactors

instance (b : Battle) : Decidable b.HasFiniteFactors :=
  inferInstanceAs (Decidable (∀ u ∈ b.units, u.HasFiniteFactors))

theorem restored_battle {b : Battle} (hfinite : b.HasFiniteFactors) :
  Restored b
  := by
  obtain ⟨hside0, hside1⟩ := List.forall_mem_append.mp hfinite
  apply readsAs_object
  intro leniency fields h
  rw [required_ok "version" h (by simp [Battle.commonFields]) (restored b.version),
    defaulted_ok "seed" h (by simp [Battle.commonFields]) (restored b.seed),
    required_ok "turn" h (by simp [Battle.commonFields]) (restored b.turn),
    required_ok "activePlayer" h (by simp [Battle.commonFields]) (restored b.activePlayer),
    requiredAs_ok h (by simp [Battle.commonFields])
      (readsAs_sides (restored_side hside0) (restored_side hside1)),
    defaulted_ok "log" h (by simp [Battle.commonFields]) (restored b.log),
    optional_ok "firstAttacker" h (by simp [Battle.commonFields]) (restored b.firstAttacker),
    defaulted_ok "uids" h (by simp [Battle.commonFields]) (restored b.uids)]
  rfl

/-- A battle is read back from the value it is written as, and from that value with its fields
in the order of their names. -/
theorem battle_read_back (b : Battle) (hfinite : b.HasFiniteFactors) :
  Json.read (encode b) = .ok b ∧ Json.read (encode b).ordered = .ok b
  := (restored_battle hfinite).read_back

/-- A unit that has something of everything. -/
def BoardUnit.veteran : BoardUnit where
  uid := ⟨1⟩
  cardId := "veteran"
  owner := 0
  cell := ⟨.back, 1⟩
  vitality := 3
  vitalityMax := 5
  impact := 4
  defence := -1
  velocity := 2
  statuses := [{ name := "STUN" }, { name := "MARK", detail := some "night" }]
  immunities := ["BURN"]
  cooldowns := .ofList [(1, 2), (0, 1)]
  usesLeft := .ofList [(200, 0)]
  modifiers := [{ impactFactor := 1.5, impactBonus := -2, thisTurnOnly := true }]
  flags := .ofList [("sworn", true), ("cursed", false)]
  buffs := [{ stat := .impact, delta := 2, expiry := .aura }]
  hasAttacked := true
  reach := some .allLanes
  preventedUntil := some 7

/-- A battle in which the veteran stands alone. -/
def Battle.siege : Battle :=
  { Battle.start 18446744073709551615 with
    turn := 6
    side0 := {
      deck := ["veteran", "veteran"]
      board := ⟨[none, none, none, none, some .veteran, none], rfl⟩
      used := .ofList [(⟨⟨1⟩, 1⟩, ())] }
    log := ["The walls hold."]
    firstAttacker := some ⟨1⟩
    uids := { next := 2 } }

theorem battle_read_back_siege :
  Battle.siege.HasFiniteFactors ∧ Json.read (encode Battle.siege) = .ok Battle.siege
    ∧ Json.read (encode Battle.siege).ordered = .ok Battle.siege
  := by
  have hfinite : Battle.siege.HasFiniteFactors := by decide +kernel
  exact ⟨hfinite, battle_read_back .siege hfinite⟩

end CardBattle
