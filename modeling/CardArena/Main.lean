import CardArena.Cli

/-!
The program: a match server over standard input and output.

Lines are read one at a time while the turn clock runs; messages are written as soon as the round
that sent them is over.
-/

namespace CardArena

/-- The text of a file, or why there is none. -/
def readText (path : String) : IO (Except String String) := do
  try
    return .ok (← IO.FS.readFile path)
  catch
    | .noFileOrDirectory .. => return .error "No such file or directory (os error 2)"
    | error => return .error (toString error)

/-- The files that a plan names. -/
def readFiles (paths : List String) : IO Cli.Files := do
  let texts ← paths.mapM fun path => return (path, ← readText path)
  return fun path => (texts.lookup path).getD (.error "not read")

/-- Waits for the next line, up to a deadline; nothing if the deadline came first. -/
partial def awaitLine (line : Task (Except IO.Error String)) (deadline : Option Nat) :
    IO (Option String) := do
  if ← IO.hasFinished line then
    match line.get with
    | .ok text => return some text
    | .error _ => return some ""
  else if deadline.any (· ≤ (← IO.monoMsNow)) then
    return none
  else
    IO.sleep 1
    awaitLine line deadline

/-- Serves lines until none will come or the match is over. -/
partial def serveLines (rules : Rulebook) (stdin : IO.FS.Stream)
    (line : Task (Except IO.Error String)) (server : Server) : IO Unit := do
  if server.game.table.isEnded then
    return ()
  let received ← awaitLine line server.game.deadline
  let sent := server.game.outbox.size
  match received with
  | some "" => return ()
  | some text =>
    let line ← IO.asTask stdin.getLine .dedicated
    match Inbound.ofLine? text with
    | none => serveLines rules stdin line server
    | some message => finish line sent (server.serve rules (some message) (← IO.monoMsNow))
  | none => finish line sent (server.serve rules none (← IO.monoMsNow))
where
  /-- Writes what the round has sent, and goes on. -/
  finish (line : Task (Except IO.Error String)) (sent : Nat) (server : Server) : IO Unit := do
    let stdout ← IO.getStdout
    for text in Cli.linesSince server sent do
      stdout.putStrLn text
    stdout.flush
    serveLines rules stdin line server

end CardArena

open CardArena in
/-- Runs the program on its arguments. -/
def main (args : List String) : IO UInt32 := do
  let p := Cli.plan {} args
  let stderr ← IO.getStderr
  for notice in p.notices do
    stderr.putStrLn notice
  match Cli.load (← readFiles (p.catalog.toList ++ p.config.toList)) p with
  | .error error =>
    stderr.putStrLn error.message
    return 1
  | .ok rules =>
    let stdin ← IO.getStdin
    let line ← IO.asTask stdin.getLine .dedicated
    serveLines rules stdin line (Cli.fresh rules)
    return 0
