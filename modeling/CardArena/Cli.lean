import CardArena.Server
import CardArena.Wire.Document
import CardArena.Wire.Message

/-!
The command line: a match server over standard input and output.

`Cli.plan` reads the arguments, `Cli.load` turns the named files into a rulebook, and
`Cli.transcript` is the whole program on given files and lines.  The program itself
(`CardArena.Main`) does the same while lines come in.
-/

namespace CardArena.Cli

/-- The files named on the command line, and what there is to say about the rest of it. -/
structure Plan where
  catalog : Option String := none
  config : Option String := none
  notices : List String := []
deriving DecidableEq, Repr, Inhabited

/-- Reads the arguments.  The last file of each kind counts. -/
def plan (p : Plan) : List String → Plan
  | [] => p
  | ["--catalog"] => { p with notices := p.notices ++ ["Error: --catalog requires a file path"] }
  | ["--config"] => { p with notices := p.notices ++ ["Error: --config requires a file path"] }
  | "--catalog" :: path :: rest => plan { p with catalog := some path } rest
  | "--config" :: path :: rest => plan { p with config := some path } rest
  | other :: rest =>
    plan { p with notices := p.notices ++ ["Warning: ignoring unknown argument " ++ other] } rest

/-- Why the program cannot start. -/
inductive LoadError where
  | noCatalog
  /-- A file cannot be read, for the reason given. -/
  | unreadableFile (path reason : String)
  | badCatalog (error : CatalogError)
  | badConfig (path : String) (error : DecodeError)
deriving DecidableEq, Repr, Inhabited

namespace LoadError

/-- The error in words. -/
def message : LoadError → String
  | .noCatalog => "Error: --catalog <path> is required"
  | .unreadableFile path reason => "Error: cannot read " ++ path ++ ": " ++ reason
  | .badCatalog error => "Error: " ++ error.message
  | .badConfig path error => "Error: " ++ path ++ ": " ++ error.message

end LoadError

/-- The text of a file, or why there is none. -/
abbrev Files := String → Except String String

/-- The text of a file that has to be there. -/
def Files.text (files : Files) (path : String) : Except LoadError String :=
  (files path).mapError (.unreadableFile path)

/-- The rulebook of the files named on the command line. -/
def load (files : Files) (p : Plan) : Except LoadError Rulebook := do
  match p.catalog with
  | none => throw .noCatalog
  | some path =>
    let catalog ← (Catalog.ofText (← files.text path)).mapError .badCatalog
    match p.config with
    | none => return ⟨catalog, {}⟩
    | some path =>
      let config ← (Config.ofText (← files.text path)).mapError (.badConfig path)
      return ⟨catalog, config⟩

/-- A server that waits for its first connection. -/
def fresh (rules : Rulebook) : Server where
  game := .new rules.config .sequential

/-- The lines that tell of the messages sent since so many had been. -/
def linesSince (s : Server) (sent : Nat) : List String :=
  (s.game.outbox.toList.drop sent).map fun (connection, message) => message.toLine connection

/-- What a run of the program leaves behind. -/
structure Transcript where
  exitCode : UInt32
  output : List String
  notices : List String
deriving DecidableEq, Repr, Inhabited

/-- The whole program on given arguments, files and lines of input.  Lines that cannot be read are
left out. -/
def transcript (args : List String) (files : Files) (input : List String) : Transcript :=
  let p := plan {} args
  match load files p with
  | .error error => ⟨1, [], p.notices ++ [error.message]⟩
  | .ok rules =>
    let messages := input.filterMap Inbound.ofLine?
    let (server, _) := (fresh rules).run rules { messages } 0 (messages.length + 1)
    ⟨0, linesSince server 0, p.notices⟩

end CardArena.Cli
