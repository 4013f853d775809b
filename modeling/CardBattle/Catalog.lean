import CardBattle.Card.Codec
import CardBattle.Json.Text
import CardBattle.SortedMap
import CardBattle.Text.Blank

/-!
# Catalogs

A catalog holds the cards that a battle is played with, no two of which have the same id.
It can be searched by faction, rarity, kind and a text.
-/

namespace CardBattle

open Json (Input ReadFault encode)

/-- The cards of a battle. -/
structure Catalog where
  cards : List Card
  distinct : (cards.map Card.id).Nodup

/-- Why a catalog cannot be had. -/
inductive CatalogFault
  | document (fault : ReadFault)
  | repeatedId (id : String)
deriving DecidableEq

/-- The text shown for a catalog that cannot be had. -/
def CatalogFault.message : CatalogFault → String
  | .document fault => fault.message
  | .repeatedId id => "duplicate card id `" ++ id ++ "`"

namespace Catalog

/-- The first text of a list that occurs before, there or among the texts seen already. -/
def firstRepeat (seen : List String) : List String → Option String
  | [] => none
  | id :: rest => if id ∈ seen then some id else firstRepeat (id :: seen) rest

/-- A list without a repeated text has no duplicates. -/
theorem nodup_of_firstRepeat {seen ids : List String} (h : firstRepeat seen ids = none) :
  ids.Nodup ∧ ∀ id ∈ ids, id ∉ seen
  := by
  induction ids generalizing seen with
  | nil => simp
  | cons id rest ih =>
    unfold firstRepeat at h
    split at h
    · cases h
    · next hid =>
      obtain ⟨hrest, hseen⟩ := ih h
      constructor
      · apply List.nodup_cons.mpr
        constructor
        · intro hmem
          exact hseen id hmem (by simp)
        · exact hrest
      · intro a ha
        rcases List.mem_cons.mp ha with rfl | ha
        · exact hid
        · intro hmem
          exact hseen a ha (by simp [hmem])

/-- The catalog of the given cards. -/
def ofCards (cards : List Card) : Except CatalogFault Catalog :=
  match h : firstRepeat [] (cards.map Card.id) with
  | none => .ok ⟨cards, (nodup_of_firstRepeat h).1⟩
  | some id => .error (.repeatedId id)

/-- The cards that a document gives in its field `cards`. -/
def readCards (document : Input) : Except ReadFault (List Card) :=
  document.readObject fun fields => fields.defaulted "cards" []

/-- The catalog of the cards that a document gives. -/
def ofJson (document : Json) : Except CatalogFault Catalog :=
  match readCards (.ofJson document) with
  | .ok cards => ofCards cards
  | .error fault => .error (.document fault)

/-- The catalog of the cards that a document gives, which is given as a text. -/
def ofText (text : String) : Except CatalogFault Catalog :=
  match Json.readText readCards text with
  | .ok cards => ofCards cards
  | .error fault => .error (.document fault)

/-- The card with the given id. -/
def find? (catalog : Catalog) (id : String) : Option Card :=
  catalog.cards.find? (fun card => card.id = id)

/-- The ids of the unit cards, in order. -/
def unitIds (catalog : Catalog) : List String :=
  (catalog.cards.filter Card.isUnit).map Card.id

/-- The factions of the cards, each once, in the order of their names. -/
def factions (catalog : Catalog) : List String :=
  let set : SortedSet String := .ofList (catalog.cards.map fun card => (card.faction, ()))
  set.keys

end Catalog

/-- What to look for in a catalog. -/
structure CardQuery where
  faction : Option String := none
  rarity : Option String := none
  kind : Option CardKind := none
  /-- Part of the name or of the id, regardless of case. -/
  search : Option String := none
deriving DecidableEq

namespace CardQuery

/-- Whether a card is what is looked for. -/
def admits (query : CardQuery) (card : Card) : Bool :=
  let part := Text.lower (Text.trim (query.search.getD ""))
  query.faction.all (card.faction = ·)
    && query.rarity.all (card.rarity = ·)
    && query.kind.all (card.kind = ·)
    && (part.isEmpty || Text.contains (Text.lower card.name) part
      || Text.contains (Text.lower card.id) part)

instance : Json.Codec CardQuery where
  encode query := .object [
    ("faction", encode query.faction), ("rarity", encode query.rarity),
    ("type", encode query.kind), ("search", encode query.search)]
  decode input := input.readObject fun fields => CardQuery.mk
    <$> fields.optional "faction" <*> fields.optional "rarity" <*> fields.optional "type"
    <*> fields.optional "search"

end CardQuery

/-- The cards that a query admits, in order. -/
def Catalog.filter (catalog : Catalog) (query : CardQuery) : List Card :=
  catalog.cards.filter query.admits

end CardBattle
