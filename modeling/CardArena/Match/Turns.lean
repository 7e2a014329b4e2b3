import CardArena.Match.Playing

/-!
Seats, turns and the clock.

Turns go round in the order of the seats.  A step that fails when a turn starts or ends is left out
and the turn goes on, so that a turn that is asked to end always ends.
-/

namespace CardArena

variable (rules : Rulebook) (resolve : Resolver)

/-! ## Seats -/

/-- The player that a deck would be seated with: their deck zone holds it, its last card on top. -/
def Player.withDeck (seat : Player) (zone : String) (deck : List CardId) : Player :=
  seat.modifyZone zone fun state => deck.foldl Zone.pushCard state

/-- Seats a player with a deck. -/
def registerPlayer (name : String) (connection : ConnectionId) (deck : List CardId) :
    Play PlayerId := do
  let m ← get
  let seats := m.table.players.length
  if m.table.turn.status ≠ .notStarted then
    throw .registrationClosed
  else if rules.config.playersPerMatch.toNat ≤ seats then
    throw .matchFull
  else
    match deck.find? fun card => (rules.catalog.card? card).isNone with
    | some unknown => throw (.unknownCard unknown)
    | none =>
      if UInt8.size ≤ seats then
        throw .matchFull
      else
        let id : PlayerId := ⟨UInt8.ofNat seats⟩
        let seat := Player.seated id name connection rules.catalog
        if (seat.zone? rules.config.deckZone).isNone && !deck.isEmpty then
          throw (.unknownZone id rules.config.deckZone)
        else
          let seat := seat.withDeck rules.config.deckZone deck
          modify (·.onTable fun table => { table with players := table.players ++ [seat] })
          modify (·.broadcast (.playerRegistered id name seat.handle))
          pure id

/-- A player can no longer be reached. -/
def disconnect (player : PlayerId) : Play Unit :=
  modify (·.onTable (·.modifyPlayer player ({ · with isConnected := false })))

/-! ## The hand -/

/-- The list without its member at a place; the last member comes into that place. -/
def swapRemove (xs : List α) (i : Nat) : List α :=
  match xs.getLast? with
  | none => []
  | some last => (xs.set i last).dropLast

/-- Cards can be taken one after the other from those that are held. -/
def holdsAll : List CardId → List CardId → Bool
  | [], _ => true
  | card :: cards, held =>
    match held.idxOf? card with
    | none => false
    | some i => holdsAll cards (swapRemove held i)

namespace Match

/-- How many cards too many a player holds. -/
def handExcess (m : Match) (player : PlayerId) : Nat :=
  ((m.table.player? player).map (·.zoneSize rules.config.handZone)).getD 0
    - rules.config.maxHandSize.toNat

/-- The designs in the hand of a player. -/
def hand (m : Match) (player : PlayerId) : List CardId :=
  ((m.table.zone? player rules.config.handZone).map Zone.cards).getD []

/-- The hand holds each named card as often as it is named. -/
def handHolds (m : Match) (player : PlayerId) (cards : List CardId) : Bool :=
  holdsAll cards (m.hand rules player)

/-- Moves a card from hand to the graveyard, or out of the game if there is no graveyard. -/
def discardCard (m : Match) (player : PlayerId) (card : CardId) : Match :=
  if card ∈ m.hand rules player then
    m.onTable fun table =>
      let table := table.modifyZone player rules.config.handZone (·.removeCard card)
      match rules.config.graveyardZone with
      | none => table
      | some zone => table.modifyZone player zone (·.pushCard card)
  else
    m

/-- Discards cards in turn. -/
def discardAll (m : Match) (player : PlayerId) (cards : List CardId) : Match :=
  cards.foldl (·.discardCard rules player ·) m

/-- Discards a card by chance, so many times. -/
def discardRandom (m : Match) (player : PlayerId) : Nat → Match
  | 0 => m
  | n + 1 =>
    match m.dice.choose (m.hand rules player) with
    | (none, dice) => { m with dice }
    | (some card, dice) =>
      ({ m with dice }.discardCard rules player card).discardRandom player n

/-- Brings the hand of a player down to the limit. -/
def forceDiscard (m : Match) (player : PlayerId) : Match :=
  m.discardRandom rules player (m.handExcess rules player)

end Match

/-! ## Scheduled actions -/

namespace PlayerGroup

/-- The players of a group. -/
def members (table : Table) : PlayerGroup → List PlayerId
  | .currentPlayer => table.activePlayer?.toList
  | .currentOpponents => table.opponents
  | .allPlayers => table.playerIds

end PlayerGroup

/-- Shuffles the zone of a player, if there is such a zone. -/
def Match.shuffleZone (m : Match) (player : PlayerId) (name : String) : Match :=
  match m.table.zone? player name with
  | none => m
  | some zone =>
    let (pile, dice) := zone.pile.shuffle m.dice
    { m.onTable (·.modifyZone player name ({ · with pile })) with dice }

/-- Does a scheduled action to one player. -/
def runGameAction (action : GameAction) (player : PlayerId) : Play Unit :=
  match action with
  | .increaseAttribute attr value =>
    changePlayerAttribute rules resolve player attr (·.plus value)
  | .decreaseAttribute attr value =>
    changePlayerAttribute rules resolve player attr (·.less value)
  | .setAttribute attr value => setPlayerAttribute rules resolve player attr value
  | .moveCards origin destination count =>
    discard (moveCards rules resolve player origin destination count.toNat)
  | .shuffleZone zone => modify (·.shuffleZone player zone)

/-- Does one scheduled action to everyone it is for. -/
def runScheduled (scheduled : ScheduledAction) : Play Unit := do
  (scheduled.target.members (← get).table).forM fun player =>
    Play.attempt (runGameAction rules resolve scheduled.action player)

/-- Does scheduled actions in turn. -/
def runAllScheduled (actions : List ScheduledAction) : Play Unit :=
  actions.forM (runScheduled rules resolve)

/-! ## Turns -/

/-- Counts one more turn for a living card, which hears of it. -/
def countTurn (card : LiveId) : Play Unit := do
  match (← get).table.live? card with
  | none => pure ()
  | some live =>
    if live.alive then
      let turns := nextCount live.turnsInPlay
      modify (·.onTable (·.modifyLive card ({ · with turnsInPlay := turns })))
      Play.attempt (raise rules resolve (.turnCount turns) card)

/-- Starts the turn of the active player. -/
def startTurn (now : Nat) : Play Unit := do
  modify fun m => { m.abandonSelection with debt := none }
  let m ← get
  match m.table.activePlayer? with
  | none => pure ()
  | some active =>
    let number := m.table.turn.number
    runAllScheduled rules resolve rules.catalog.turnStartActions
    Play.attempt (raiseOnAll rules resolve (.playerLifecycle .turnStart active))
    (← get).table.liveInOrder.forM (countTurn rules resolve)
    modify fun m => { m with deadline := some (now + rules.config.turnMillis) }
    modify (·.broadcastViews (.turnStarted active number))

/-- Starts the match; nothing if it has been started before. -/
def startGame (now : Nat) : Play Unit := do
  let table := (← get).table
  if table.turn.status ≠ .notStarted then
    pure ()
  else if table.players.isEmpty then
    throw .noPlayers
  else
    modify (·.onTable ({ · with turn := ⟨.running, 0, 1⟩ }))
    runAllScheduled rules resolve rules.catalog.gameStartActions
    modify (·.broadcastViews .gameStarted)
    startTurn rules resolve now

/-- The turn after this one. -/
def Table.nextTurn (t : Table) : Turn :=
  if t.players.length ≤ t.turn.activeIndex + 1 then
    { t.turn with activeIndex := 0, number := t.turn.number + 1 }
  else
    { t.turn with activeIndex := t.turn.activeIndex + 1 }

namespace Match

/-- Counts one turn end down and destroys the cards that are due. -/
def destroyDue (m : Match) : Match :=
  let (due, destructions) := m.destructions.countDown
  { m with destructions }.destroyAll rules.config.graveyardZone due

/-- Destroys the cards that die after their effect. -/
def destroyAfterEffect (m : Match) : Match :=
  let (due, destructions) := m.destructions.takeAfterEffect
  { m with destructions }.destroyAll rules.config.graveyardZone due

/-- Nobody has played a card this turn. -/
def clearLastPlayed (m : Match) : Match :=
  m.onTable fun table =>
    { table with players := table.players.map fun seat => { seat with lastPlayed := none } }

end Match

/-- Ends the turn of the active player and starts the next one. -/
def endTurn (now : Nat) : Play Unit := do
  let table := (← get).table
  match table.activePlayer? with
  | none => throw .gameNotRunning
  | some active =>
    modify (·.abandonSelection)
    modify (·.destroyDue rules)
    modify fun m => { m.forceDiscard rules active with debt := none }
    runAllScheduled rules resolve rules.catalog.turnEndActions
    Play.attempt (raiseOnAll rules resolve (.playerLifecycle .turnEnd active))
    modify (·.destroyAfterEffect rules)
    modify (·.clearLastPlayed)
    modify (·.broadcast (.turnEnded active table.turn.number))
    modify fun m => { m.onTable fun table => { table with turn := table.nextTurn } with
      deadline := none }
    if (← get).table.isRunning then
      startTurn rules resolve now

/-- Ends the turn if its time is over; whether it was. -/
def tick (now : Nat) : Play Bool := do
  let m ← get
  if m.table.isRunning && m.deadline.any (· ≤ now) then
    endTurn rules resolve now
    pure true
  else
    pure false

/-- The active player ends their turn, or has to discard first. -/
def stopTurn (player : PlayerId) (now : Nat) : Play Outcome := do
  let m ← get
  match m.table.refusal? player with
  | some reason => pure (.rejected reason)
  | none =>
    if m.debt.isSome then
      pure (.rejected .discardPending)
    else
      let excess := m.handExcess rules player
      if 0 < excess then
        modify fun m => { m with debt := some ⟨player, excess⟩ }
        modify (·.tell player (.selectDiscard (UInt64.ofNat excess)))
        pure .deferred
      else
        endTurn rules resolve now
        pure .applied

/-- A player names the cards that they owe.  An answer that will not do gets the same question
again. -/
def discardCards (player : PlayerId) (cards : List CardId) (now : Nat) : Play Outcome := do
  let m ← get
  match m.debt with
  | none => pure (.rejected .noPendingDiscard)
  | some debt =>
    if debt.player ≠ player then
      pure (.rejected .noPendingDiscard)
    else if cards.length ≠ debt.count || !m.handHolds rules player cards then
      modify (·.tell player (.selectDiscard (UInt64.ofNat debt.count)))
      pure .reprompted
    else
      modify (·.discardAll rules player cards)
      modify fun m => { m with debt := none }
      endTurn rules resolve now
      pure .applied

/-- Ends the match; nothing if it is over. -/
def endGame (winner : Option PlayerId) : Play Unit := do
  if !(← get).table.isEnded then
    modify fun m =>
      { m.abandonSelection.onTable fun table =>
          { table with turn := { table.turn with status := .ended winner } } with
        deadline := none
        debt := none }
    modify (·.broadcast (.gameEnded winner))

end CardArena
