import CardArena.Table

/-!
What one viewer may see of the table.  Of a private zone of someone else that is the number of its
cards and nothing more.
-/

namespace CardArena

/-- A card in play as clients see it. -/
structure LiveCardView where
  id : LiveId
  card : CardId
  owner : PlayerId
  alive : Bool
  turnsInPlay : UInt32
  attributes : Attributes
deriving DecidableEq, Repr, Inhabited

/-- A zone as a viewer sees it. -/
structure ZoneView where
  name : String
  count : UInt64
  /-- The designs in the zone; absent if they are hidden. -/
  cards : Option (List CardId)
  liveCards : List LiveCardView
deriving DecidableEq, Repr, Inhabited

/-- A player as a viewer sees them. -/
structure PlayerView where
  id : PlayerId
  name : String
  isConnected : Bool
  attributes : Attributes
  zones : List ZoneView
deriving DecidableEq, Repr, Inhabited

/-- The table as a viewer sees it. -/
structure Snapshot where
  turnNumber : UInt32
  activePlayer : Option PlayerId
  players : List PlayerView
deriving DecidableEq, Repr, Inhabited

namespace LiveCard

/-- The card as clients see it. -/
def view (card : LiveCard) : LiveCardView where
  id := card.id
  card := card.card
  owner := card.owner
  alive := card.alive
  turnsInPlay := card.turnsInPlay
  attributes := card.attributes

end LiveCard

namespace Table

/-- A zone as its owner or somebody else sees it. -/
def viewZone (t : Table) (isOwner : Bool) (zone : Zone) : ZoneView :=
  let hidden := zone.isPrivate && !isOwner
  { name := zone.name
    count := UInt64.ofNat zone.size
    cards := if hidden then none else some zone.cards
    liveCards := if hidden then [] else (zone.live.filterMap t.live?).map LiveCard.view }

/-- A player as a viewer sees them. -/
def viewPlayer (t : Table) (viewer : Option PlayerId) (player : Player) : PlayerView where
  id := player.id
  name := player.name
  isConnected := player.isConnected
  attributes := player.attributes
  zones := player.zones.map (t.viewZone (viewer = some player.id))

/-- The table as a viewer sees it; without a viewer, as everybody may. -/
def snapshot (t : Table) (viewer : Option PlayerId) : Snapshot where
  turnNumber := t.turn.number
  activePlayer := t.activePlayer?
  players := t.players.map (t.viewPlayer viewer)

end Table

end CardArena
