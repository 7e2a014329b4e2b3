import CardArena.Inbox
import CardArena.Match.Operation

/-!
A match and the connections that play it.

The server seats the connections that register, starts the match when the last seat is taken, hands
on what players ask for, ends a turn whose time is over, and ends the match when a player is
defeated or nobody is left.
-/

namespace CardArena

/-- A match and who sits where. -/
structure Server where
  game : Match
  seats : List (ConnectionId × PlayerId) := []
deriving Inhabited

/-- A step of a server. -/
abbrev Serve := ExceptT Fault (StateM Server)

namespace Server

/-- The player of a connection. -/
def playerFor? (s : Server) (connection : ConnectionId) : Option PlayerId :=
  s.seats.lookup connection

variable (rules : Rulebook)

/-- A step of the match. -/
def playing (step : Play α) : Serve α :=
  ExceptT.mk do
    let s ← get
    let (result, game) := step.run s.game
    set { s with game }
    return result

/-- The players in whom the attribute that must not run out has run out. -/
def defeated (table : Table) (attr : String) : List Player :=
  table.players.filter fun player => (player.attributes.get? attr).any (· ≤ 0)

/-- The players in whom it has not. -/
def standing (table : Table) (attr : String) : List Player :=
  table.players.filter fun player => !(player.attributes.get? attr).any (· ≤ 0)

/-- Who has won when somebody is defeated: the only one who is not, if there is just one. -/
def winner? (table : Table) (attr : String) : Option PlayerId :=
  match standing table attr with
  | [only] => some only.id
  | _ => none

/-- Ends the match if somebody is defeated. -/
def checkDefeat : Serve Unit := do
  let table := (← get).game.table
  match rules.config.defeatAttribute with
  | none => pure ()
  | some attr =>
    if table.isRunning && !(defeated table attr).isEmpty then
      playing (endGame (winner? table attr))

/-- Ends the match if nobody is left. -/
def endIfAbandoned : Serve Unit := do
  let table := (← get).game.table
  if table.isRunning && table.connected.isEmpty then
    playing (endGame none)

/-- Seats a connection, and starts the match if it took the last seat. -/
def register (connection : ConnectionId) (name : String) (deck : List CardId) (now : Nat) :
    Serve Outcome := do
  if ((← get).playerFor? connection).isSome then
    return .rejected .alreadyRegistered
  match ← tryCatch (some <$> playing (registerPlayer rules name connection deck))
      (fun _ => pure none) with
  | none => return .rejected .registrationRefused
  | some player =>
    modify fun s => { s with seats := s.seats ++ [(connection, player)] }
    if (← get).seats.length = rules.config.playersPerMatch.toNat then
      playing (startGame rules rules.resolver now)
    return .applied

/-- A connection is gone. -/
def drop (connection : ConnectionId) : Serve Unit := do
  match (← get).playerFor? connection with
  | none => pure ()
  | some player =>
    playing (disconnect player)
    endIfAbandoned

/-- Serves one message. -/
def handle (message : Inbound) (now : Nat) : Serve Outcome := do
  match message with
  | .intent connection (.register name deck) =>
    let outcome ← register rules connection name deck now
    checkDefeat rules
    return outcome
  | .intent connection intent =>
    match (← get).playerFor? connection with
    | none => return .rejected .unknownConnection
    | some player =>
      let outcome ← playing (handleIntent rules rules.resolver player intent now)
      checkDefeat rules
      return outcome
  | .disconnected connection =>
    drop connection
    checkDefeat rules
    return .applied

/-- What a step leaves of the server, whether or not it failed. -/
def after (s : Server) (step : Serve α) : Server :=
  (step.run s).2

/-- What follows each wait for a message: the turn ends if its time is over, and the match if
somebody is defeated. -/
def settle (s : Server) (now : Nat) : Server :=
  (s.after (playing (tick rules rules.resolver now))).after (checkDefeat rules)

/-- One round of service: a message, if there is one, and what follows. -/
def serve (s : Server) (message : Option Inbound) (now : Nat) : Server :=
  let s := match message with
    | none => s
    | some message => s.after (handle rules message now)
  s.settle rules now

/-- Serves the messages of an inbox until none will come or the match is over, at most so many
rounds.  Time passes only by waiting. -/
def run (s : Server) (inbox : Inbox) (now : Nat) : Nat → Server × Inbox
  | 0 => (s, inbox)
  | rounds + 1 =>
    if s.game.table.isEnded then
      (s, inbox)
    else
      match inbox.receive s.game.deadline with
      | (.closed, inbox) => (s, inbox)
      | (.message message, inbox) => (s.serve rules (some message) now).run inbox now rounds
      | (.timedOut deadline, inbox) =>
        (s.serve rules none (max now deadline)).run inbox (max now deadline) rounds

end Server

end CardArena
