import CardArena.Catalog.Basic

/-!
Cards in play, and the store that keeps them.

The store holds each handle at most once; its view is `Roster.get?`.  To insert a card under a
handle that is taken replaces what was there.
-/

namespace CardArena

/-- A card in play. -/
structure LiveCard where
  id : LiveId
  card : CardId
  owner : PlayerId
  /-- A killed card stays for some turns; it is then in play but not alive. -/
  alive : Bool
  /-- How many turns have started while the card was in play. -/
  turnsInPlay : UInt32
  attributes : Attributes
deriving DecidableEq, Repr, Inhabited

namespace LiveCard

/-- A card that comes into play, with the attributes of its type. -/
def spawn (id : LiveId) (design : CardDesign) (cardType : CardType) (owner : PlayerId) :
    LiveCard where
  id := id
  card := design.id
  owner := owner
  alive := true
  turnsInPlay := 0
  attributes := cardType.attributes

end LiveCard

/-- The cards in play, by handle. -/
structure Roster where
  cards : List LiveCard
  distinct : (cards.map LiveCard.id).Nodup
deriving DecidableEq, Repr

namespace Roster

/-- No cards. -/
def empty : Roster :=
  ⟨[], List.nodup_nil⟩

instance : Inhabited Roster := ⟨empty⟩

/-- How many cards are in play. -/
def size (r : Roster) : Nat :=
  r.cards.length

/-- The card of a handle. -/
def get? (r : Roster) (id : LiveId) : Option LiveCard :=
  r.cards.find? (·.id = id)

/-- The store without a handle. -/
def erase (r : Roster) (id : LiveId) : Roster where
  cards := r.cards.filter (·.id ≠ id)
  distinct := r.distinct.sublist (List.filter_sublist.map _)

/-- The store with a card under its handle. -/
def insert (r : Roster) (card : LiveCard) : Roster where
  cards := card :: (r.erase card.id).cards
  distinct := by
    refine List.nodup_cons.2 ⟨?_, (r.erase card.id).distinct⟩
    simp [erase]

/-- The store with the card of a handle changed; its handle stays what it is. -/
def modify (r : Roster) (id : LiveId) (change : LiveCard → LiveCard) : Roster where
  cards := r.cards.map fun card => if card.id = id then { change card with id := id } else card
  distinct := by
    have same : (r.cards.map fun card =>
        if card.id = id then { change card with id := id } else card).map LiveCard.id
          = r.cards.map LiveCard.id := by
      rw [List.map_map]
      refine List.map_congr_left fun card _ => ?_
      by_cases h : card.id = id <;> simp [h]
    exact same ▸ r.distinct

end Roster

end CardArena
