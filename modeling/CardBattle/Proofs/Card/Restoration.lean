import CardBattle.Action.Legal
import CardBattle.Action.Resolution
import CardBattle.Card.Codec
import CardBattle.Catalog
import CardBattle.Proofs.Script.Restoration

/-!
# Reading back a card

A card is read back from what it is written as, and so is a catalog of cards, if the factors of
the boosts that the scripts give are finite.  The reader of rules tries to read them as one
block first; no list of blocks is read so, since what stands in the place of the trigger of
that block is an object of several fields.
-/

namespace CardBattle

open Json (Fields FieldsReorder Input LawfulCodec Leniency NeverNull ReadFault ReadsAs Restored
  decode defaulted_ok encode lawful_ofNames neverNull_ofNames nextItem_fails optionalAs_ok
  optional_ok readAs_one readAs_option readName_of_fields readsAs_object reorders_array
  reorders_object reorders_ordered required_ok restored restored_list under whole_ofFields)

instance : LawfulCodec CardKind := lawful_ofNames (by rintro (_ | _) <;> rfl)

instance : LawfulCodec AbilityKind := lawful_ofNames (by rintro (_ | _ | _) <;> rfl)

instance : LawfulCodec TargetScope := lawful_ofNames (by rintro (_ | _ | _ | _) <;> rfl)

instance : NeverNull TargetScope := neverNull_ofNames _ _

instance : LawfulCodec Trigger := lawful_ofNames (by intro trigger; cases trigger <;> rfl)

/-! ### Statistics -/

namespace StatLine

/-- The value of the only field of a name. -/
theorem valueWhere?_of_under {fields : Fields} {name : String} {v : Json}
    (h : under [name] fields = [v]) :
  valueWhere? fields (· = name) = some v
  := by
  simp only [under, List.mem_singleton] at h
  rw [valueWhere?, ← List.head?_filter, ← List.head?_map, h]
  rfl

theorem ofJson_encode (n : Int32) :
  ofJson (encode n) = n
  := by
  have hlow := n.le_toInt
  have hhigh := n.toInt_lt
  have hclamp : clamp64 n.toInt = n.toInt := by
    rw [clamp64]
    omega
  change Int32.ofInt (clamp64 n.toInt) = n
  rw [hclamp, Int32.ofInt_toInt]

/-- A statistic that stands under its name once is found there. -/
theorem lookup_ok {fields fields' : Fields} {stat : Stat} {n : Int32}
    (h : FieldsReorder fields fields') (hone : under [stat.name] fields = [encode n]) :
  lookup fields' stat = n
  := by
  obtain ⟨v, hv, hreorders⟩ := h.under_one hone
  cases hreorders
  rw [lookup, valueWhere?_of_under hv]
  exact ofJson_encode n

end StatLine

instance : LawfulCodec StatLine where
  restored s := by
    intro leniency v hv
    obtain ⟨fields, rfl, h⟩ := reorders_object hv
    change ((Json.Members.ofFields leniency fields).whole.result.map StatLine.ofFields) = _
    rw [whole_ofFields]
    change Except.ok (StatLine.ofFields fields) = _
    rw [StatLine.ofFields, StatLine.lookup_ok h rfl, StatLine.lookup_ok h rfl,
      StatLine.lookup_ok h rfl, StatLine.lookup_ok h rfl]

/-! ### Rule blocks -/

/-- The factors of the boosts that the script of the block gives are finite. -/
def RuleBlock.HasFiniteFactors (block : RuleBlock) : Prop :=
  scriptHasFiniteFactors block.script

theorem restored_block {block : RuleBlock} (hfinite : block.HasFiniteFactors) :
  Restored block
  := by
  intro leniency v hv
  obtain ⟨fields, rfl, -⟩ := reorders_object hv
  refine readsAs_object ?_ leniency _ hv
  intro leniency fields h
  rw [required_ok "trigger" h (by simp) (restored block.trigger),
    optional_ok "condition" h (by simp) (restored block.condition),
    readAs_one h (by simp) (restored_script hfinite)]
  rfl

/-- A list of blocks is not read as one block. -/
theorem block_of_blocks (leniency : Leniency) {blocks : List RuleBlock} {v : Json}
    (h : (encode blocks).Reorders v) :
  ∃ fault, (decode (.given leniency v) : Except ReadFault RuleBlock) = .error fault
  := by
  obtain ⟨items, rfl, hitems⟩ := reorders_array h
  cases blocks with
  | nil =>
    cases hitems
    exact ⟨.shape, rfl⟩
  | cons block rest =>
    -- the first block stands where the name of the trigger is looked for
    obtain ⟨v, items, hblock, -, rfl⟩ := List.forall₂_cons_left_iff.mp hitems
    obtain ⟨fields, rfl, hfields⟩ := reorders_object hblock
    have hlength : 2 ≤ fields.length := by
      rw [hfields.length_eq]
      simp
    obtain ⟨fault, hfault⟩ := readName_of_fields leniency
      (fun name => (some (Trigger.ofName name)).map Json.Meaning.value) hlength
    have hparts : RuleBlock.parts
        ⟨.given leniency (.object fields) :: items.map (.given leniency), true⟩ = .error fault :=
      nextItem_fails hfault
    use fault
    change (Input.given leniency _).readItems RuleBlock.parts = _
    simp only [Input.readItems, Input.items, List.map_cons, bind, Except.bind, hparts]

/-! ### Abilities -/

/-- The factors of the boosts that the scripts of the ability give are finite. -/
def Ability.HasFiniteFactors (a : Ability) : Prop :=
  ∀ block ∈ a.rules, block.HasFiniteFactors

/-- Rules are read as the blocks that they are, one after the other. -/
theorem readsAs_rules {blocks : List RuleBlock}
    (hfinite : ∀ block ∈ blocks, block.HasFiniteFactors) :
  ReadsAs Ability.readRules (encode blocks) blocks
  := by
  intro leniency v hv
  have hrestored : Restored blocks := restored_list fun block hblock =>
    restored_block (hfinite block hblock)
  obtain ⟨fault, hfault⟩ := block_of_blocks { kindsByNumber := true } hv
  obtain ⟨items, rfl, -⟩ := reorders_array hv
  simp only [Ability.readRules, Input.whole, bind, Except.bind, Input.isNull, hfault]
  exact hrestored { kindsByNumber := true } _ hv

theorem readsAs_uses (n : UInt32) :
  ReadsAs Ability.readUses (.object [("perGame", encode n)]) n
  := by
  apply readsAs_object
  intro leniency fields h
  exact required_ok "perGame" h rfl (restored n)

theorem readsAs_cost (n : UInt32) :
  ReadsAs Ability.readCost (.object [("discard", encode n)]) n
  := by
  apply readsAs_object
  intro leniency fields h
  exact defaulted_ok "discard" h rfl (restored n)

theorem restored_ability {a : Ability} (hfinite : a.HasFiniteFactors) :
  Restored a
  := by
  apply readsAs_object
  intro leniency fields h
  rw [required_ok "type" h (by simp) (restored a.kind),
    optional_ok "slot" h (by simp) (restored a.slot),
    defaulted_ok "name" h (by simp) (restored a.name),
    defaulted_ok "text" h (by simp) (restored a.text),
    optionalAs_ok ["cooldown", "cd"] h (by simp) (restored a.cooldown),
    readAs_option (o := a.uses) h (by simp [Function.comp_def]) fun n _ =>
      (readsAs_uses n).orNull (by simp),
    readAs_option (o := a.cost) h (by simp [Function.comp_def]) fun n _ =>
      (readsAs_cost n).orNull (by simp),
    optional_ok "target" h (by simp) (restored a.target),
    readAs_one h (by simp) (readsAs_rules hfinite)]
  rfl

/-! ### Cards -/

/-- The factors of the boosts that the scripts of the card give, at any nesting, are finite. -/
def Card.HasFiniteFactors (card : Card) : Prop :=
  ∀ a ∈ card.abilities, a.HasFiniteFactors

theorem restored_card {card : Card} (hfinite : card.HasFiniteFactors) :
  Restored card
  := by
  have habilities : Restored card.abilities :=
    restored_list fun a ha => restored_ability (hfinite a ha)
  apply readsAs_object
  intro leniency fields h
  rw [required_ok "id" h (by simp) (restored card.id),
    required_ok "name" h (by simp) (restored card.name),
    defaulted_ok "type" h (by simp) (restored card.kind),
    defaulted_ok "faction" h (by simp) (restored card.faction),
    defaulted_ok "rarity" h (by simp) (restored card.rarity),
    defaulted_ok "classes" h (by simp) (restored card.classes),
    readAs_one h (by simp) (restored card.stats),
    defaulted_ok "abilities" h (by simp) habilities,
    optional_ok "image" h (by simp) (restored card.image)]
  rfl

/-! ### Catalogs -/

namespace Catalog

/-- The document that gives the cards of the catalog. -/
def document (catalog : Catalog) : Json :=
  .object [("cards", encode catalog.cards)]

theorem firstRepeat_of_nodup {seen ids : List String} (h : ids.Nodup)
    (hseen : ∀ id ∈ ids, id ∉ seen) :
  firstRepeat seen ids = none
  := by
  induction ids generalizing seen with
  | nil => rfl
  | cons id rest ih =>
    obtain ⟨hid, hrest⟩ := List.nodup_cons.mp h
    obtain ⟨hnew, hseen⟩ := List.forall_mem_cons.mp hseen
    rw [firstRepeat, if_neg hnew]
    apply ih hrest
    intro other hother hmem
    rcases List.mem_cons.mp hmem with rfl | hmem
    · exact hid hother
    · exact hseen other hother hmem

theorem ofCards_cards (catalog : Catalog) :
  ofCards catalog.cards = .ok catalog
  := by
  have hnone : firstRepeat [] (catalog.cards.map Card.id) = none :=
    firstRepeat_of_nodup catalog.distinct (by simp)
  rw [ofCards]
  split
  · rfl
  · next id hid =>
    rw [hnone] at hid
    cases hid

theorem ofJson_document {catalog : Catalog}
    (hfinite : ∀ card ∈ catalog.cards, card.HasFiniteFactors) {v : Json}
    (hv : catalog.document.Reorders v) :
  ofJson v = .ok catalog
  := by
  have hcards : Restored catalog.cards := restored_list fun card hcard =>
    restored_card (hfinite card hcard)
  have hread : ReadsAs readCards catalog.document catalog.cards := by
    apply readsAs_object
    intro leniency fields h
    exact defaulted_ok "cards" h rfl hcards
  rw [ofJson, Input.ofJson, hread {} v hv]
  exact ofCards_cards catalog

end Catalog

/-- A card is read back from the value it is written as, and from that value with its fields in
the order of their names.  The catalog that is made again from the cards as they are written has
the same cards, and by the rules with it all battles take the same course. -/
theorem cards_read_back :
  (∀ card : Card, card.HasFiniteFactors →
    Json.read (encode card) = .ok card ∧ Json.read (encode card).ordered = .ok card)
  ∧ ∀ rules : Ruleset, (∀ card ∈ rules.catalog.cards, card.HasFiniteFactors) →
    ∃ catalog, Catalog.ofJson rules.catalog.document = .ok catalog
      ∧ Catalog.ofJson rules.catalog.document.ordered = .ok catalog
      ∧ catalog.cards = rules.catalog.cards
      ∧ ∀ b, ({ rules with catalog } : Ruleset).legalActions b = rules.legalActions b
        ∧ ∀ action, ({ rules with catalog } : Ruleset).resolve b action = rules.resolve b action
  := by
  constructor
  · intro card hfinite
    exact (restored_card hfinite).read_back
  · intro rules hfinite
    use rules.catalog, Catalog.ofJson_document hfinite (.refl _),
      Catalog.ofJson_document hfinite (reorders_ordered _), rfl
    exact fun b => ⟨rfl, fun action => rfl⟩

/-- A card of which one ability has two blocks, with conditions, tests and steps in each
other. -/
def Card.sphinx : Card where
  id := "sphinx"
  name := "Sphinx"
  classes := ["Riddle"]
  stats := { vitality := 7, impact := -3 }
  abilities := [{
    kind := .active
    slot := some 2
    cooldown := some 1
    uses := some 3
    target := some .enemy
    rules := [
      { trigger := .activate
        condition := some (.all [.all [.unknown, .selfFlag "awake"], .adjacentAlly none])
        script := [
          .branch (.all [.unknown, .all [.adjacentToSelf (.uid 4)]])
            [.branch .targetHasNegativeStatus [.boostAttack .self { impactFactor := 2.5 }] []]
            [.unknown, .applyStatus .target "STUN" none]] },
      { trigger := .unknown, script := [] }] }]
  image := some "sphinx.png"

theorem cards_read_back_sphinx :
  let rules : Ruleset := { catalog := ⟨[.sphinx], by decide⟩ }
  Json.read (encode Card.sphinx) = .ok Card.sphinx
    ∧ ∃ catalog, Catalog.ofJson rules.catalog.document = .ok catalog
      ∧ catalog.cards = [.sphinx]
      ∧ ∀ b action,
        ({ rules with catalog } : Ruleset).resolve b action = rules.resolve b action
  := by
  intro rules
  have hfinite : Card.sphinx.HasFiniteFactors := by
    intro a ha block hblock
    obtain rfl := List.mem_singleton.mp ha
    simp only [List.mem_cons, List.not_mem_nil, or_false] at hblock
    obtain rfl | rfl := hblock
    · have hfactor : (2.5 : Float).isFinite := by decide +kernel
      simp [RuleBlock.HasFiniteFactors, scriptHasFiniteFactors, Step.HasFiniteFactors, hfactor]
    · trivial
  obtain ⟨catalog, hcatalog, -, hcards, hruns⟩ :=
    cards_read_back.2 rules (by simpa [rules] using hfinite)
  use (cards_read_back.1 .sphinx hfinite).1, catalog, hcatalog, hcards
  exact fun b => (hruns b).2

end CardBattle
