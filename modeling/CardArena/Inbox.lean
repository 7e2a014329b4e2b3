import CardArena.Message

/-!
Where the messages of clients wait to be served.
-/

namespace CardArena

/-- What comes in from a connection. -/
inductive Inbound where
  | intent (connection : ConnectionId) (intent : Intent)
  | disconnected (connection : ConnectionId)
deriving DecidableEq, Repr, Inhabited

/-- Messages that wait, and whether more may still come. -/
structure Inbox where
  messages : List Inbound := []
  isOpen : Bool := false
deriving DecidableEq, Repr, Inhabited

/-- What waiting for a message brought. -/
inductive Received where
  | message (message : Inbound)
  /-- The deadline came first. -/
  | timedOut (deadline : Nat)
  /-- No message will come. -/
  | closed
deriving DecidableEq, Repr, Inhabited

namespace Inbox

/-- Waits for the next message, at most up to a deadline.  A message that is there is delivered
whatever the deadline is.  Waiting at an open inbox without a deadline would never end, and counts
as the end of all messages. -/
def receive (inbox : Inbox) (deadline : Option Nat) : Received × Inbox :=
  match inbox.messages with
  | message :: rest => (.message message, { inbox with messages := rest })
  | [] =>
    match inbox.isOpen, deadline with
    | true, some deadline => (.timedOut deadline, inbox)
    | _, _ => (.closed, inbox)

end Inbox

end CardArena
