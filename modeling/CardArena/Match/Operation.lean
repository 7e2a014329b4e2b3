import CardArena.Match.Choosing
import CardArena.Match.Turns

/-!
Everything that can be asked of a match, as data.

`Operation.play` says what an operation does.  It is the one way in: outside of an operation no
cascade is under way.
-/

namespace CardArena

/-- One thing asked of a match. -/
inductive Operation where
  | register (name : String) (connection : ConnectionId) (deck : List CardId)
  | start (now : Nat)
  | endTurn (now : Nat)
  | tick (now : Nat)
  | stopTurn (player : PlayerId) (now : Nat)
  | discardCards (player : PlayerId) (cards : List CardId) (now : Nat)
  | requestMove (player : PlayerId) (origin destination : String) (count : Nat)
  | playCard (player : PlayerId) (card : CardId)
  | selectTarget (player : PlayerId) (choice : TargetChoice)
  /-- What a seated player's client asks for. -/
  | intent (player : PlayerId) (intent : Intent) (now : Nat)
  | endGame (winner : Option PlayerId)
  | disconnect (player : PlayerId)
  | moveCards (player : PlayerId) (origin destination : String) (count : Nat)
  | kill (card : LiveId)
  | transform (card : LiveId) (into : String)
  /-- A card in play was attacked. -/
  | attack (card : LiveId)
  | setPlayerAttribute (player : PlayerId) (attr : String) (value : Amount)
  | setCardAttribute (card : LiveId) (attr : String) (value : Amount)
deriving DecidableEq, Repr, Inhabited

/-- What an operation answers. -/
inductive Answer where
  | done
  | player (id : PlayerId)
  | flag (value : Bool)
  | count (value : Nat)
  | card (id : Option LiveId)
  | outcome (value : Outcome)
deriving DecidableEq, Repr, Inhabited

variable (rules : Rulebook) (resolve : Resolver)

/-- A card in play was attacked. -/
def attackCard (card : LiveId) : Play Unit := do
  if ((← get).table.live? card).isNone then
    throw (.unknownLiveCard card)
  else
    raise rules resolve .cardAttacked card
    modify (·.broadcastState)

/-- Does what a seated player's client asks for. -/
def handleIntent (player : PlayerId) (intent : Intent) (now : Nat) : Play Outcome :=
  match intent with
  | .register .. => pure (.rejected .alreadyRegistered)
  | .playCard card => playCard rules resolve player card
  | .stopTurn => stopTurn rules resolve player now
  | .moveCards origin destination count =>
    requestMove rules resolve player origin destination count.toNat
  | .selectTarget choice => selectTarget rules resolve player choice
  | .discardCards cards => discardCards rules resolve player cards now

/-- Answers `done` after a step. -/
def thenDone (step : Play Unit) : Play Answer := do
  step
  return .done

/-- Does an operation, given how firings are done. -/
def performWith (op : Operation) : Play Answer :=
  match op with
  | .register name connection deck => .player <$> registerPlayer rules name connection deck
  | .start now => thenDone (startGame rules resolve now)
  | .endTurn now => thenDone (endTurn rules resolve now)
  | .tick now => .flag <$> tick rules resolve now
  | .stopTurn player now => .outcome <$> stopTurn rules resolve player now
  | .discardCards player cards now => .outcome <$> discardCards rules resolve player cards now
  | .requestMove player origin destination count =>
    .outcome <$> requestMove rules resolve player origin destination count
  | .playCard player card => .outcome <$> playCard rules resolve player card
  | .selectTarget player choice => .outcome <$> selectTarget rules resolve player choice
  | .intent player intent now => .outcome <$> handleIntent rules resolve player intent now
  | .endGame winner => thenDone (endGame winner)
  | .disconnect player => thenDone (disconnect player)
  | .moveCards player origin destination count =>
    .count <$> moveCards rules resolve player origin destination count
  | .kill card => thenDone (kill rules resolve card)
  | .transform card into => .card <$> transform rules resolve card into
  | .attack card => thenDone (attackCard rules resolve card)
  | .setPlayerAttribute player attr value =>
    thenDone (setPlayerAttribute rules resolve player attr value)
  | .setCardAttribute card attr value =>
    thenDone (setCardAttribute rules resolve card attr value)

/-- Does an operation: its answer and the match after it. -/
def Match.perform (m : Match) (op : Operation) : Except Fault Answer × Match :=
  (performWith rules rules.resolver op).run m

end CardArena
