import CardBattle.Proofs.Cascade.Frame

/-!
# The answer of a unit to its own elimination

In a coherent battle every unit precedes those that are scanned after it, going by the owners
and the cells that they name (`Battle.Coherent.ordered`).  So a unit that has left its board
comes into the scan order of those that are left where it was (`recipients_departed`), and when
its elimination is broadcast, it answers there, once, as it was (`departed_answers_in_place`).
-/

namespace CardBattle

open Change

/-! ### Scan order -/

namespace BoardUnit

variable {u v : BoardUnit}

theorem precedes_iff :
  u.precedes v ↔ u.owner.toNat < v.owner.toNat ∨ u.owner.toNat = v.owner.toNat
    ∧ (u.cell.lane.rank < v.cell.lane.rank ∨ u.cell.lane.rank = v.cell.lane.rank
      ∧ u.cell.column.toNat < v.cell.column.toNat)
  := by simp only [precedes, Bool.or_eq_true, Bool.and_eq_true, decide_eq_true_eq]

theorem precedes_asymm (h : u.precedes v) :
  ¬v.precedes u
  := by
  rw [precedes_iff] at *
  omega

/-- Of two units of one owner the one in the cell of the lower number precedes the other. -/
theorem precedes_of_index {i j : Nat} (howner : u.owner = v.owner) (hu : u.cell.index? = some i)
    (hv : v.cell.index? = some j) (hij : i < j) :
  u.precedes v
  := by
  simp only [Cell.index?, Option.ite_none_right_eq_some, Option.some.injEq] at hu hv
  obtain ⟨hucolumn, rfl⟩ := hu
  obtain ⟨hvcolumn, rfl⟩ := hv
  rw [columns] at *
  rw [precedes_iff, howner]
  omega

end BoardUnit

/-- On an arranged board every unit precedes those behind it. -/
theorem Board.Arranged.ordered {board : Board} {player : UInt8} (h : board.Arranged player) :
  board.units.Pairwise fun u v => u.precedes v
  := by
  apply List.pairwise_filterMap.mpr
  apply List.pairwise_iff_getElem.mpr
  rintro i j hi hj hij u hu v hv
  obtain ⟨hucell, huowner⟩ := h i u (List.getElem?_eq_some_iff.mpr ⟨hi, hu⟩)
  obtain ⟨hvcell, hvowner⟩ := h j v (List.getElem?_eq_some_iff.mpr ⟨hj, hv⟩)
  exact BoardUnit.precedes_of_index (huowner.trans hvowner.symm) hucell hvcell hij

namespace Battle

/-- In a coherent battle every unit precedes those that are scanned after it. -/
theorem Coherent.ordered {b : Battle} (hb : b.Coherent) :
  b.units.Pairwise fun u v => u.precedes v
  := by
  apply List.pairwise_append.mpr ⟨hb.arranged0.ordered, hb.arranged1.ordered, _⟩
  intro u hu v hv
  rw [BoardUnit.precedes_iff, hb.arranged0.owner hu, hb.arranged1.owner hv]
  exact .inl (by decide)

end Battle

/-! ### The place of a unit that has left -/

/-- A uid comes behind the units that its own does not precede and before those that it does. -/
theorem insertUid_between {b : Battle} (hdistinct : (b.units.map BoardUnit.uid).Nodup)
    {gone : BoardUnit} {before after : List BoardUnit} (hunits : b.units = before ++ after)
    (hbefore : ∀ v ∈ before, ¬gone.precedes v) (hafter : ∀ v ∈ after, gone.precedes v) :
  insertUid b gone ((before ++ after).map BoardUnit.uid)
    = (before ++ gone :: after).map BoardUnit.uid
  := by
  have hfind : ∀ v ∈ before ++ after, b.find? v.uid = some v := by
    intro v hv
    exact Battle.find?_of_mem hdistinct (hunits ▸ hv)
  clear hunits
  induction before with
  | nil =>
    cases after with
    | nil => rfl
    | cons v rest =>
      rw [List.nil_append, List.map_cons, insertUid, hfind v List.mem_cons_self, Option.any_some,
        if_pos (hafter v List.mem_cons_self)]
      rfl
  | cons v rest ih =>
    have hrest := ih (fun w hw => hbefore w (List.mem_cons_of_mem v hw))
      (fun w hw => hfind w (List.mem_cons_of_mem v hw))
    rw [List.cons_append, List.map_cons, insertUid, hfind v List.mem_cons_self, Option.any_some,
      if_neg (hbefore v List.mem_cons_self), hrest]
    rfl

/-- The elimination of a unit is broadcast in the order in which the units stood before it
left. -/
theorem recipients_departed {b left : Battle} (hb : b.Coherent) {gone : BoardUnit}
    {before after : List BoardUnit} (hunits : b.units = before ++ gone :: after)
    (hleft : left.units = before ++ after) {event : Event}
    (hdeparted : event.departed? = some gone) :
  event.recipients left = b.units.map BoardUnit.uid
  := by
  have hordered := hb.ordered
  rw [hunits] at hordered
  obtain ⟨-, hgone, hbefore⟩ := List.pairwise_append.mp hordered
  rw [Event.recipients, hdeparted, hleft, hunits]
  apply insertUid_between _ hleft
  · intro v hv
    exact BoardUnit.precedes_asymm (hbefore v hv gone List.mem_cons_self)
  · exact (List.pairwise_cons.mp hgone).1
  · have hdistinct := hb.distinct
    rw [hunits] at hdistinct
    rw [hleft]
    apply List.Nodup.sublist _ hdistinct
    apply List.Sublist.map
    simp

/-! ### The answers to an elimination -/

section

variable (rules : Ruleset) (emit : Event → Change) (event : Event)

/-- The unit of a uid runs the rule blocks of its card for an event, if it is on a board. -/
def answerOnBoard (uid : Uid) : Change := fun b =>
  match b.find? uid with
  | some u =>
      Change.forEach (runBlock rules emit event uid none) (rules.blocksOf u.cardId event.trigger) b
  | none => Change.done b

/-- A unit that has left its board runs a rule block as it was. -/
def runDeparted (gone : BoardUnit) (block : RuleBlock) : Change := fun b =>
  if block.applies rules b gone event then runScript rules emit gone event block.script b
  else Change.done b

end

variable {rules : Ruleset} {emit : Event → Change} {event : Event} {gone : BoardUnit}

/-- All units on the boards but the one eliminated answer to an elimination as to any event. -/
theorem respond_on_board (htrigger : event.trigger = .onUnitEliminated)
    (hgone : event.eliminated = some gone) {uid : Uid} (huid : uid ≠ gone.uid) :
  respond rules emit event uid = answerOnBoard rules emit event uid
  := by
  funext b
  rw [respond, answerOnBoard]
  cases b.find? uid with
  | some u => simp [Event.concerns, htrigger]
  | none =>
    have hother : event.departed?.filter (fun gone => gone.uid = uid) = none := by
      simp [Event.departed?, htrigger, hgone, Option.filter_eq_none_iff, huid.symm]
    dsimp only
    rw [hother]

variable (hemit : ∀ event b b', (emit event).Leads b b' → Moves b b')

include hemit

/-- A unit that has left its board answers to its own elimination as it was. -/
theorem respond_departed (htrigger : event.trigger = .onUnitEliminated)
    (hgone : event.eliminated = some gone) {b : Battle} (hb : b.Coherent)
    (habsent : b.find? gone.uid = none) :
  respond rules emit event gone.uid b
    = forEach (runDeparted rules emit event gone) (rules.blocksOf gone.cardId event.trigger) b
  := by
  rw [respond, habsent]
  simp only [Event.departed?, htrigger, hgone, Option.filter_some, decide_true, if_true]
  symm
  apply forEach_congr (P := fun m => m.Coherent ∧ m.find? gone.uid = none) _ _ ⟨hb, habsent⟩
  · rintro block - m ⟨-, hnone⟩
    rw [runBlock, hnone]
    rfl
  · rintro block - m m' ⟨hm, hnone⟩ hblock
    have hmoves := runBlock_moves hemit hblock
    exact ⟨hm.moves hmoves, hm.moves_absent hmoves hnone⟩

/-- The elimination of a unit is broadcast in the order in which the units stood before it left,
and in its place it answers as it was. -/
theorem broadcast_departed (htrigger : event.trigger = .onUnitEliminated)
    (hgone : event.eliminated = some gone) {b left : Battle} (hb : b.Coherent)
    {before after : List BoardUnit} (hunits : b.units = before ++ gone :: after)
    (hcoherent : left.Coherent) (hleft : left.units = before ++ after) :
  broadcast rules emit event left
    = ((forEach (answerOnBoard rules emit event) (before.map BoardUnit.uid)).andThen
      ((forEach (runDeparted rules emit event gone)
          (rules.blocksOf gone.cardId event.trigger)).andThen
        (forEach (answerOnBoard rules emit event) (after.map BoardUnit.uid)))) left
  := by
  have hothers : ∀ v ∈ before ++ after, v.uid ≠ gone.uid := by
    have hdistinct := hb.distinct
    rw [hunits, ← List.singleton_append, ← List.append_assoc] at hdistinct
    exact Battle.uid_ne_of_distinct hdistinct
  have hanswers : ∀ l ⊆ before ++ after,
      forEach (respond rules emit event) (l.map BoardUnit.uid)
        = forEach (answerOnBoard rules emit event) (l.map BoardUnit.uid) := by
    intro l hl
    funext m
    apply forEach_congr (P := fun _ => True) _ (fun _ _ _ _ _ _ => trivial) trivial
    intro uid huid m _
    obtain ⟨v, hv, rfl⟩ := List.mem_map.mp huid
    rw [respond_on_board htrigger hgone (hothers v (hl hv))]
  have hdeparted : event.departed? = some gone := by rw [Event.departed?, htrigger, hgone]
  have habsent : left.find? gone.uid = none := by
    apply List.find?_eq_none.mpr
    intro v hv
    simpa using hothers v (hleft ▸ hv)
  rw [broadcast, recipients_departed hb hunits hleft hdeparted, hunits, List.map_append,
    List.map_cons, forEach_append, forEach, hanswers before (List.subset_append_left _ _),
    hanswers after (List.subset_append_right _ _)]
  apply andThen_congr rfl
  intro m hm
  have hmoves : Moves left m := by
    rw [← hanswers before (List.subset_append_left _ _)] at hm
    exact forEach_moves (fun _ _ _ _ => respond_moves hemit) hm
  apply andThen_congr _ fun _ _ => rfl
  exact respond_departed hemit htrigger hgone (hcoherent.moves hmoves)
    (hcoherent.moves_absent hmoves habsent)

omit hemit

/-- A unit that is taken off its board keeps its place in the scan order: when its elimination is
broadcast, the others answer in the order in which the units stood, and in its place it answers,
once, as it was. -/
theorem departed_answers_in_place {b : Battle} (hb : b.corruption? = none) {u : BoardUnit}
    (hu : u ∈ b.units) :
  ∃ side board before after, b.side? u.owner = some side
    ∧ side.board.take? u.uid = some (u, board)
    ∧ b.units = before ++ u :: after ∧ (∀ v ∈ before ++ after, v.uid ≠ u.uid)
    ∧ ∀ (rules : Ruleset) (event : Event), event.trigger = .onUnitEliminated →
      event.eliminated = some u →
      let left := b.setBoard u.owner board
      let inner := rules.emitWithin (rules.settings.maxTriggerDepth.toNat - event.depth.toNat)
      let answers := forEach (answerOnBoard rules inner event)
      let lastWords := forEach (runDeparted rules inner event u)
      event.recipients left = b.units.map BoardUnit.uid
      ∧ rules.emit event left = if event.depth ≤ rules.settings.maxTriggerDepth then
          ((answers (before.map BoardUnit.uid)).andThen
            ((lastWords (rules.blocksOf u.cardId .onUnitEliminated)).andThen
              (answers (after.map BoardUnit.uid)))) left
        else done left
  := by
  have hcoherent := (Battle.corruption?_eq_none_iff.mp hb).toCoherent
  obtain ⟨side, hside, hfind, -⟩ := hcoherent.find?_side (Battle.find?_of_mem hcoherent.distinct hu)
  obtain ⟨i, hturns⟩ := Board.setUnit_turns hfind none
  obtain ⟨before, after, hunits, hleft⟩ := Battle.units_turns hside hturns
  have hothers := Battle.uid_ne_of_distinct (hunits ▸ hcoherent.distinct)
  rw [Option.toList_some, List.append_assoc, List.singleton_append] at hunits
  rw [Option.toList_none, List.append_nil] at hleft
  refine ⟨side, _, before, after, hside, Board.take?_eq_some.mpr ⟨hfind, rfl⟩, hunits, hothers, ?_⟩
  intro rules event htrigger hgone left inner answers lastWords
  have hdeparted : event.departed? = some u := by rw [Event.departed?, htrigger, hgone]
  use recipients_departed hcoherent hunits hleft hdeparted
  split
  · next hdepth =>
    rw [Ruleset.emit_of_le hdepth, ← htrigger]
    exact broadcast_departed (fun _ _ _ => Ruleset.emitWithin_moves) htrigger hgone hcoherent hunits
      (hcoherent.take hside hturns) hleft
  · next hdepth =>
    rw [Ruleset.emit_of_lt (UInt32.not_le.mp hdepth)]

/-- A unit that stands in front. -/
def BoardUnit.vanguard : BoardUnit :=
  { uid := ⟨2⟩, cardId := "scout", owner := 1, cell := ⟨.front, 1⟩, vitality := 1,
    vitalityMax := 1, impact := 1, defence := 0, velocity := 2 }

/-- A unit on the one side, and a unit in front of another on the other side. -/
def Battle.vanguard : Battle :=
  { Battle.duel with
    side1.board := ⟨[none, some .vanguard, none,
      some { BoardUnit.vanguard with uid := ⟨3⟩, cell := ⟨.back, 0⟩ }, none, none], rfl⟩
    uids := ⟨4⟩ }

/-- A unit card whose unit heals its allies when a unit is eliminated, and says so in the log. -/
def Card.consoler (id name : String) : Card :=
  { id, name
    abilities := [{
      kind := .passive
      rules := [{ trigger := .onUnitEliminated, script := [.healAllies 1 {}] }] }] }

/-- The unit in front is taken off its board, and its last words come between the answers of the
others. -/
theorem departed_answers_in_place_vanguard :
  let rules : Ruleset :=
    { catalog := ⟨[.consoler "mourner" "Mourner", .consoler "scout" "Scout"], by decide⟩ }
  let u := BoardUnit.vanguard
  let block : RuleBlock := { trigger := .onUnitEliminated, script := [.healAllies 1 {}] }
  let board := Battle.vanguard.side1.board.setUnit ⟨2⟩ none
  let left := Battle.vanguard.setBoard 1 board
  let event := Event.ofElimination .onUnitEliminated 1 u none 0
  let inner := rules.emitWithin rules.settings.maxTriggerDepth.toNat
  let answers := forEach (answerOnBoard rules inner event)
  let lines := ["Mourner (u_1) cura gli alleati di 1", "Scout (u_2) cura gli alleati di 1",
    "Scout (u_3) cura gli alleati di 1"]
  Battle.vanguard.corruption? = none ∧ u ∈ Battle.vanguard.units
    ∧ Battle.vanguard.side1.board.take? ⟨2⟩ = some (u, board)
    ∧ rules.blocksOf u.cardId .onUnitEliminated = [block]
    ∧ event.recipients left = [⟨1⟩, ⟨2⟩, ⟨3⟩]
    ∧ rules.emit event left = ((answers [⟨1⟩]).andThen
        ((forEach (runDeparted rules inner event u) [block]).andThen (answers [⟨3⟩]))) left
    ∧ ∃ b', (rules.emit event).Leads left b' ∧ b'.log = lines
  := by
  intro rules u block board left event inner answers lines
  have hb : Battle.vanguard.corruption? = none := by decide
  have hu : u ∈ Battle.vanguard.units := by decide
  obtain ⟨side, board', before, after, hside, htake, hunits, -, hanswers⟩ :=
    departed_answers_in_place hb hu
  obtain rfl : Battle.vanguard.side1 = side := Option.some.inj hside
  obtain rfl : board = board' := (Prod.mk.inj (Option.some.inj htake)).2
  obtain ⟨horder, hemit⟩ := hanswers rules event rfl rfl
  -- No other unit has the uid of the departed, so that there is only one way to split the units.
  have hscan : Battle.vanguard.units.map BoardUnit.uid = [⟨1⟩] ++ ⟨2⟩ :: [⟨3⟩] := rfl
  rw [hunits, List.map_append, List.map_cons] at hscan
  obtain ⟨hbefore, -, hafter⟩ :=
    (List.append_cons_inj_of_notMem (by decide) (by decide)).mp hscan.symm
  rw [← hbefore, ← hafter] at hemit
  obtain ⟨b', hb', hlog⟩ := exists_leads (c := rules.emit event) (b := left)
    (p := fun b' => b'.log = lines) (by decide +kernel)
  exact ⟨hb, hu, htake, rfl, horder, hemit, b', hb', of_decide_eq_true hlog⟩

end CardBattle
