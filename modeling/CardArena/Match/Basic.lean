import CardArena.Config
import CardArena.Destruction
import CardArena.Fault
import CardArena.Session
import CardArena.Spawner
import CardArena.Subject

/-!
The state of a match, and what the steps of a match are made of.

A step is a `Play`: it may fail with a fault, and it changes the state whether it fails or not.
The rules of the game and the settings never change; every step takes them as a `Rulebook`.

Much of what a step does is to let effects fire, and to do an effect is again a step.  So each step
takes a `Resolver` that says how a firing is done; `Match.Cascade` ties the knot.
-/

namespace CardArena

/-- What a match is played by. -/
structure Rulebook where
  catalog : Catalog
  config : Config
deriving Inhabited

/-- A discard that the active player still owes. -/
structure DiscardDebt where
  player : PlayerId
  count : Nat
deriving DecidableEq, Repr, Inhabited

/-- The state of a match. -/
structure Match where
  table : Table := {}
  session : Session := {}
  destructions : DestructionQueue := {}
  debt : Option DiscardDebt := none
  /-- When the turn runs out, in milliseconds. -/
  deadline : Option Nat := none
  /-- How many firings are being done inside each other. -/
  cascadeDepth : Nat := 0
  dice : Dice
  spawner : Spawner
  outbox : Outbox := #[]
  /-- The table as it was when each message of the outbox was sent. -/
  scenes : Array Table := #[]
deriving Inhabited

/-- A step of a match: what it does to the state stays done when it fails. -/
abbrev Play := ExceptT Fault (StateM Match)

/-- How a firing is done. -/
abbrev Resolver := Firing → Play Unit

namespace Match

/-- A match before its first player, for a row of handles; the dice are those of the seed. -/
def new (config : Config) (spawner : Spawner) : Match where
  dice := Dice.ofSeed (config.seed.getD 0)
  spawner := spawner

/-- Sends messages, in order. -/
def post (m : Match) (mail : List (ConnectionId × Message)) : Match :=
  { m with outbox := m.outbox ++ mail, scenes := m.scenes ++ mail.map fun _ => m.table }

/-- Tells one player, if they are connected. -/
def tell (m : Match) (player : PlayerId) (message : Message) : Match :=
  match m.table.player? player with
  | none => m
  | some seat => if seat.isConnected then m.post [(seat.connection, message)] else m

/-- Tells every connected player the same. -/
def broadcast (m : Match) (message : Message) : Match :=
  m.post (m.table.connected.map fun seat => (seat.connection, message))

/-- Tells every connected player about the table, each as they may see it. -/
def broadcastViews (m : Match) (message : Snapshot → Message) : Match :=
  m.post (m.table.connected.map fun seat =>
    (seat.connection, message (m.table.snapshot (some seat.id))))

/-- Tells every connected player how the table is now. -/
def broadcastState (m : Match) : Match :=
  m.broadcastViews .stateUpdated

/-- Drops the open question and whatever waits behind it. -/
def abandonSelection (m : Match) : Match :=
  { m with session := {} }

/-- The match with its table changed. -/
def onTable (m : Match) (change : Table → Table) : Match :=
  { m with table := change m.table }

/-- Takes a card out of play: out of its zone, the queue of destructions and the store, and lets
go of its handle.  The card as it last was, if it was in play. -/
def despawn (m : Match) (card : LiveId) : Option LiveCard × Match :=
  let removed := m.table.live? card
  (removed,
    { m with
      table := m.table.removeLive card
      destructions := m.destructions.cancel card
      spawner := if removed.isSome then m.spawner.despawn card else m.spawner })

/-- Takes a card out of play for good; its design goes on top of its owner's graveyard if that is a
static zone. -/
def destroy (m : Match) (graveyard : Option String) (card : LiveId) : Match :=
  match m.despawn card with
  | (none, m) => m
  | (some removed, m) =>
    let m := match graveyard with
      | none => m
      | some zone => m.onTable (·.modifyZone removed.owner zone (·.pushCard removed.card))
    m.broadcast (.cardDestroyed card)

/-- Takes several cards out of play for good. -/
def destroyAll (m : Match) (graveyard : Option String) (cards : List LiveId) : Match :=
  cards.foldl (·.destroy graveyard ·) m

end Match

/-- Does a step and goes on whether or not it failed. -/
def Play.attempt (step : Play Unit) : Play Unit :=
  tryCatch step fun _ => pure ()

end CardArena
