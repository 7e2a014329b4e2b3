import CardArena.Effect
import CardArena.Message

/-!
The question to a player that is open, if there is one, and the firings that wait behind it.

At most one effect waits for its target.  While it does, whatever else fires waits in line.
-/

namespace CardArena

/-- An effect of a card in play that is to be done. -/
structure Firing where
  effect : Effect
  source : LiveId
deriving DecidableEq, Repr, Inhabited

/-- An effect that waits for its target. -/
structure Selection where
  kind : TargetKind
  effect : Effect
  source : LiveId
  /-- The player who has to name the target. -/
  chooser : PlayerId
deriving DecidableEq, Repr, Inhabited

/-- The open question and the firings behind it. -/
structure Session where
  pending : Option Selection := none
  /-- The firings that wait, first come first. -/
  queue : List Firing := []
deriving DecidableEq, Repr, Inhabited

namespace Selection

/-- The question to the chooser. -/
def question (s : Selection) : Message :=
  .selectTarget s.kind s.effect.definition s.source

end Selection

namespace Session

/-- No question is open. -/
def isIdle (s : Session) : Bool :=
  s.pending.isNone

/-- A firing joins the line. -/
def enqueue (s : Session) (firing : Firing) : Session :=
  { s with queue := s.queue ++ [firing] }

/-- The first firing in line and the session without it, if no question is open. -/
def next? (s : Session) : Option (Firing × Session) :=
  match s.pending, s.queue with
  | none, firing :: rest => some (firing, { s with queue := rest })
  | _, _ => none

end Session

end CardArena
