import CardArena.Comparison
import CardArena.Identifier

/-!
What makes an effect fire: the events of a match, the triggers that listen for them, and
`Trigger.matches`, which says which trigger listens for which event.

An event names what happened.  A trigger on a player's doings also says whose doings it listens to,
as seen by the owner of the card that carries it.
-/

namespace CardArena

/-- The two moments of a turn that cards can listen for. -/
inductive TurnPhase where
  | turnStart
  | turnEnd
deriving DecidableEq, Repr, Inhabited

/-- Whose doings a trigger listens to, as seen by the owner of its card. -/
inductive PlayerSource where
  | owner
  | anyOpponent
  | anyPlayer
deriving DecidableEq, Repr, Inhabited

/-- Which way an attribute moved.  For a zone, up is in and down is out. -/
inductive Direction where
  | increase
  | decrease
deriving DecidableEq, Repr, Inhabited

/-- How a trigger counts the turns of its card in play. -/
inductive TurnCountMode where
  /-- Once, when one turn more than the given number has started. -/
  | after
  /-- Whenever the number of turns is a multiple of the given one. -/
  | every
deriving DecidableEq, Repr, Inhabited

/-- What an effect waits for. -/
inductive Trigger where
  | playerLifecycle (phase : TurnPhase) (source : PlayerSource)
  | playerAttributeDelta (direction : Direction) (attr : String) (source : PlayerSource)
  | playerPlayedCard (cardType : String) (source : PlayerSource)
  | cardZoneTransition (direction : Direction) (zone : String)
  | cardAttributeDelta (direction : Direction) (attr : String)
  | cardAttributeCompare (op : Comparison) (attr : String) (threshold : Amount)
  | cardAttacked
  | turnCount (mode : TurnCountMode) (turns : UInt32)
deriving DecidableEq, Repr, Inhabited

/-- Something that happened to a player or a card. -/
inductive Event where
  | playerLifecycle (phase : TurnPhase) (player : PlayerId)
  | playerAttributeDelta (direction : Direction) (attr : String) (player : PlayerId)
  | playerPlayedCard (player : PlayerId) (card : CardId) (cardType : String)
  | cardZoneTransition (direction : Direction) (zone : String)
  | cardAttributeDelta (direction : Direction) (attr : String)
  | cardAttributeCompare (op : Comparison) (attr : String) (value : Amount)
  | cardAttacked
  | turnCount (turnsInPlay : UInt32)
deriving DecidableEq, Repr, Inhabited

/-- What a condition looks at. -/
inductive SubjectKind where
  | player
  | card
deriving DecidableEq, Repr, Inhabited

namespace PlayerSource

/-- A card of `owner` listens to what `actor` does. -/
def admits (owner actor : PlayerId) : PlayerSource → Bool
  | .owner => actor = owner
  | .anyOpponent => actor ≠ owner
  | .anyPlayer => true

/-- The name of the filter. -/
def name : PlayerSource → String
  | .owner => "Owner"
  | .anyOpponent => "AnyOpponent"
  | .anyPlayer => "AnyPlayer"

end PlayerSource

namespace TurnPhase

/-- The name of the phase. -/
def name : TurnPhase → String
  | .turnStart => "TurnStart"
  | .turnEnd => "TurnEnd"

end TurnPhase

namespace Direction

/-- The name of the direction. -/
def name : Direction → String
  | .increase => "Increase"
  | .decrease => "Decrease"

/-- A card comes into a zone. -/
abbrev enter : Direction := .increase

/-- A card goes out of a zone. -/
abbrev leave : Direction := .decrease

/-- The way from one value to another, if they differ. -/
def between? (old new : Amount) : Option Direction :=
  if old < new then some .increase
  else if new < old then some .decrease
  else none

end Direction

namespace TurnCountMode

/-- The name of the mode. -/
def name : TurnCountMode → String
  | .after => "After"
  | .every => "Every"

/-- The number of turns in play is one that is waited for.  No card is ever one turn past the last
32-bit number, and no number is a multiple of zero here. -/
def hits (turns inPlay : UInt32) : TurnCountMode → Bool
  | .after => turns.toNat + 1 = inPlay.toNat
  | .every => 0 < turns && inPlay % turns = 0

end TurnCountMode

namespace Event

/-- The kind of the event. -/
def name : Event → String
  | .playerLifecycle .. => "PlayerLifecycle"
  | .playerAttributeDelta .. => "PlayerAttributeDelta"
  | .playerPlayedCard .. => "PlayerPlayedCard"
  | .cardZoneTransition .. => "CardZoneTransition"
  | .cardAttributeDelta .. => "CardAttributeDelta"
  | .cardAttributeCompare .. => "CardAttributeCompare"
  | .cardAttacked => "CardAttacked"
  | .turnCount .. => "TurnCount"

end Event

namespace Trigger

/-- Whose doings the trigger listens to, if it listens to players. -/
def playerSource? : Trigger → Option PlayerSource
  | .playerLifecycle _ source => some source
  | .playerAttributeDelta _ _ source => some source
  | .playerPlayedCard _ source => some source
  | _ => none

/-- What the conditions of the trigger look at.  After a play they look at the card played. -/
def subjectKind : Trigger → SubjectKind
  | .playerLifecycle .. => .player
  | .playerAttributeDelta .. => .player
  | _ => .card

/-- The trigger, on a card of `owner`, listens for the event. -/
def listensFor (owner : PlayerId) : Trigger → Event → Bool
  | .playerLifecycle phase source, .playerLifecycle phase' player =>
    phase = phase' && source.admits owner player
  | .playerAttributeDelta direction attr source,
    .playerAttributeDelta direction' attr' player =>
    direction = direction' && attr = attr' && source.admits owner player
  | .playerPlayedCard cardType source, .playerPlayedCard player _ cardType' =>
    cardType = cardType' && source.admits owner player
  | .cardZoneTransition direction zone, .cardZoneTransition direction' zone' =>
    direction = direction' && zone = zone'
  | .cardAttributeDelta direction attr, .cardAttributeDelta direction' attr' =>
    direction = direction' && attr = attr'
  | .cardAttributeCompare op attr threshold, .cardAttributeCompare op' attr' value =>
    op = op' && attr = attr' && op.holds value threshold
  | .cardAttacked, .cardAttacked => true
  | .turnCount mode turns, .turnCount inPlay => mode.hits turns inPlay
  | _, _ => false

/-- The trigger in words. -/
def display : Trigger → String
  | .playerLifecycle phase source => phase.name ++ " of " ++ source.name
  | .playerAttributeDelta direction attr source =>
    source.name ++ " " ++ attr ++ " " ++ direction.name
  | .playerPlayedCard cardType source => source.name ++ " played a " ++ cardType
  | .cardZoneTransition .increase zone => "enters " ++ zone
  | .cardZoneTransition .decrease zone => "leaves " ++ zone
  | .cardAttributeDelta direction attr => attr ++ " " ++ direction.name
  | .cardAttributeCompare op attr threshold =>
    attr ++ " " ++ op.symbol ++ " " ++ toString threshold.toInt
  | .cardAttacked => "attacked"
  | .turnCount mode turns => mode.name ++ " " ++ toString turns ++ " turns"

end Trigger

end CardArena
