import CardArena.LiveCard
import CardArena.Player

/-!
The table: seated players, cards in play, and whose turn it is.
-/

namespace CardArena

/-- How far a match has come. -/
inductive Status where
  | notStarted
  | running
  | ended (winner : Option PlayerId)
deriving DecidableEq, Repr, Inhabited

/-- Whose turn it is. -/
structure Turn where
  status : Status := .notStarted
  /-- The place of the active player among the players. -/
  activeIndex : Nat := 0
  /-- How often the turn has come round to the first player. -/
  number : UInt32 := 0
deriving DecidableEq, Repr, Inhabited

/-- The players, the cards in play and the turn. -/
structure Table where
  players : List Player := []
  roster : Roster := .empty
  turn : Turn := {}
deriving DecidableEq, Repr, Inhabited

namespace Table

/-- The match is under way. -/
def isRunning (t : Table) : Bool :=
  t.turn.status = .running

/-- The match is over. -/
def isEnded (t : Table) : Bool :=
  match t.turn.status with
  | .ended _ => true
  | _ => false

/-- A player by seat. -/
def player? (t : Table) (id : PlayerId) : Option Player :=
  t.players.find? (·.id = id)

/-- The zone of a player. -/
def zone? (t : Table) (id : PlayerId) (name : String) : Option Zone := do
  (← t.player? id).zone? name

/-- Every seat, in order. -/
def playerIds (t : Table) : List PlayerId :=
  t.players.map Player.id

/-- The players who can be reached. -/
def connected (t : Table) : List Player :=
  t.players.filter Player.isConnected

/-- The active player while the match is under way. -/
def activePlayer? (t : Table) : Option PlayerId :=
  if t.isRunning then (t.players[t.turn.activeIndex]?).map Player.id else none

/-- Every player but the active one. -/
def opponents (t : Table) : List PlayerId :=
  t.playerIds.filter fun id => t.activePlayer? ≠ some id

/-- A card in play. -/
def live? (t : Table) (id : LiveId) : Option LiveCard :=
  t.roster.get? id

/-- The card is in play and alive. -/
def isAlive (t : Table) (id : LiveId) : Bool :=
  (t.live? id).any LiveCard.alive

/-- The handles in all zones: player by player, zone by zone, from the bottom up. -/
def liveInOrder (t : Table) : List LiveId :=
  t.players.flatMap Player.live

/-- The player and the zone that a card in play is with. -/
def locate? (t : Table) (id : LiveId) : Option (PlayerId × String) :=
  t.players.findSome? fun player => (player.zoneOf? id).map (player.id, ·)

/-- The table with a player changed. -/
def modifyPlayer (t : Table) (id : PlayerId) (change : Player → Player) : Table :=
  { t with players := t.players.map fun player => if player.id = id then change player else player }

/-- The table with the zone of a player changed. -/
def modifyZone (t : Table) (id : PlayerId) (name : String) (change : Zone → Zone) : Table :=
  t.modifyPlayer id (·.modifyZone name change)

/-- The table with a card in play changed. -/
def modifyLive (t : Table) (id : LiveId) (change : LiveCard → LiveCard) : Table :=
  { t with roster := t.roster.modify id change }

/-- The table with a card in play added or replaced, in no zone yet. -/
def insertLive (t : Table) (card : LiveCard) : Table :=
  { t with roster := t.roster.insert card }

/-- The table without a card in play. -/
def removeLive (t : Table) (id : LiveId) : Table :=
  { t with players := t.players.map (·.forget id), roster := t.roster.erase id }

end Table

end CardArena
