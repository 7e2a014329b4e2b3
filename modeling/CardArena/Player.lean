import CardArena.Catalog.Basic

/-!
A seated player: attributes, zones, and the last card played.
-/

namespace CardArena

/-- The last card that a player played this turn. -/
structure LastPlayed where
  card : CardId
  /-- The card in play that it became, while that is still in play. -/
  live : Option LiveId
deriving DecidableEq, Repr, Inhabited

/-- A seated player. -/
structure Player where
  id : PlayerId
  handle : NetHandle
  connection : ConnectionId
  isConnected : Bool
  name : String
  attributes : Attributes
  zones : List Zone
  lastPlayed : Option LastPlayed
deriving DecidableEq, Repr, Inhabited

namespace Player

/-- A player who takes a seat, with the attributes and the empty zones of the catalog. -/
def seated (id : PlayerId) (name : String) (connection : ConnectionId) (catalog : Catalog) :
    Player where
  id := id
  handle := id.netHandle
  connection := connection
  isConnected := true
  name := name
  attributes := .ofList (catalog.playerAttributes.map fun a => (a.name, a.baseValue))
  zones := catalog.zones.map Zone.ofLayout
  lastPlayed := none

/-- The zone of a name. -/
def zone? (p : Player) (name : String) : Option Zone :=
  p.zones.find? (·.name = name)

/-- How many cards a zone holds; none if there is no such zone. -/
def zoneSize (p : Player) (name : String) : Nat :=
  ((p.zone? name).map Zone.size).getD 0

/-- The player with the zone of a name changed. -/
def modifyZone (p : Player) (name : String) (change : Zone → Zone) : Player :=
  { p with zones := p.zones.map fun zone => if zone.name = name then change zone else zone }

/-- The cards in play, zone by zone. -/
def live (p : Player) : List LiveId :=
  p.zones.flatMap Zone.live

/-- The zone that a card in play is in. -/
def zoneOf? (p : Player) (card : LiveId) : Option String :=
  (p.zones.find? (·.live.contains card)).map Zone.name

/-- The player without a card in play, which is no longer the last card played either. -/
def forget (p : Player) (card : LiveId) : Player :=
  { p with
    zones := p.zones.map (·.removeLive card)
    lastPlayed := p.lastPlayed.map fun last =>
      if last.live = some card then { last with live := none } else last }

end Player

end CardArena
