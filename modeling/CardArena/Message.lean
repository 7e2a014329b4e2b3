import CardArena.Snapshot

/-!
What clients ask for, what they are told, and how the match answers a request.
-/

namespace CardArena

/-- What a player is asked to name. -/
inductive TargetKind where
  | player
  | card
deriving DecidableEq, Repr, Inhabited

/-- What a player names. -/
inductive TargetChoice where
  | player (id : PlayerId)
  | card (id : LiveId)
deriving DecidableEq, Repr, Inhabited

/-- What a client asks for. -/
inductive Intent where
  | register (name : String) (deck : List CardId)
  | playCard (card : CardId)
  | stopTurn
  | moveCards (origin destination : String) (count : UInt32)
  | selectTarget (choice : TargetChoice)
  | discardCards (cards : List CardId)
deriving DecidableEq, Repr, Inhabited

/-- What a client is told. -/
inductive Message where
  | playerRegistered (player : PlayerId) (name : String) (handle : NetHandle)
  | gameStarted (snapshot : Snapshot)
  | turnStarted (player : PlayerId) (turnNumber : UInt32) (snapshot : Snapshot)
  | turnEnded (player : PlayerId) (turnNumber : UInt32)
  | stateUpdated (snapshot : Snapshot)
  /-- Asks for the target of an effect. -/
  | selectTarget (kind : TargetKind) (effect : String) (source : LiveId)
  /-- Asks for cards to discard. -/
  | selectDiscard (count : UInt64)
  | cardSpawned (card : LiveId) (design : CardId) (owner : PlayerId) (zone : String)
  | cardKilled (card : LiveId)
  | cardDestroyed (card : LiveId)
  | cardTransformed (old new : LiveId) (design : CardId)
  | gameEnded (winner : Option PlayerId)
deriving DecidableEq, Repr, Inhabited

namespace Message

/-- The kind of the message. -/
def name : Message → String
  | .playerRegistered .. => "PlayerRegistered"
  | .gameStarted .. => "GameStarted"
  | .turnStarted .. => "TurnStarted"
  | .turnEnded .. => "TurnEnded"
  | .stateUpdated .. => "StateUpdated"
  | .selectTarget .. => "SelectTarget"
  | .selectDiscard .. => "SelectDiscard"
  | .cardSpawned .. => "CardSpawned"
  | .cardKilled .. => "CardKilled"
  | .cardDestroyed .. => "CardDestroyed"
  | .cardTransformed .. => "CardTransformed"
  | .gameEnded .. => "GameEnded"

end Message

/-- Messages sent, in order, each with the connection it went to. -/
abbrev Outbox := Array (ConnectionId × Message)

namespace Outbox

/-- What went to one connection. -/
def sentTo (box : Outbox) (connection : ConnectionId) : List Message :=
  (box.toList.filter (·.1 = connection)).map Prod.snd

/-- How many messages of a kind went out. -/
def count (box : Outbox) (name : String) : Nat :=
  (box.toList.filter (·.2.name = name)).length

end Outbox

/-- Why a request is refused.  A refused request changes nothing. -/
inductive Refusal where
  | gameNotRunning
  | registrationRefused
  | alreadyRegistered
  | unknownConnection
  | notActivePlayer
  | cardNotInHand
  | cannotPay
  | unknownZone
  | noPendingSelection
  | notChooser
  | noPendingDiscard
  | discardPending
deriving DecidableEq, Repr, Inhabited

namespace Refusal

/-- The reason in words. -/
def message : Refusal → String
  | .gameNotRunning => "match is not running"
  | .registrationRefused => "registration refused"
  | .alreadyRegistered => "connection already registered"
  | .unknownConnection => "connection has no player"
  | .notActivePlayer => "not the active player"
  | .cardNotInHand => "card is not in hand"
  | .cannotPay => "cannot pay the card's costs"
  | .unknownZone => "no such zone"
  | .noPendingSelection => "no target selection is pending"
  | .notChooser => "selection belongs to another player"
  | .noPendingDiscard => "no discard is pending"
  | .discardPending => "waiting for a discard"

end Refusal

/-- How a request is answered. -/
inductive Outcome where
  | applied
  /-- The player has to discard first. -/
  | deferred
  /-- The answer to a question was not acceptable; the question was put again. -/
  | reprompted
  | rejected (reason : Refusal)
deriving DecidableEq, Repr, Inhabited

end CardArena
