import CardArena.Identifier

/-!
Faults: what an operation of a match can fail with.  What was done before a fault stays done.
-/

namespace CardArena

/-- Why an operation of a match failed. -/
inductive Fault where
  | unknownPlayer (id : PlayerId)
  | unknownLiveCard (id : LiveId)
  | unknownCard (id : CardId)
  | unknownCardName (name : String)
  | unknownCardType (name : String)
  | unknownZone (player : PlayerId) (zone : String)
  | ruleNotFound (name : String)
  | attributeNotFound (entity attr : String)
  /-- Firings were nested too deep. -/
  | cascadeLimitExceeded (depth : Nat)
  | gameNotRunning
  | noPlayers
  | registrationClosed
  | matchFull
deriving DecidableEq, Repr, Inhabited

namespace Fault

/-- The fault in words. -/
def message : Fault → String
  | .unknownPlayer id => "Unknown player " ++ toString id
  | .unknownLiveCard id => "Unknown live card " ++ toString id
  | .unknownCard id => "Unknown card " ++ toString id
  | .unknownCardName name => "Unknown card '" ++ name ++ "'"
  | .unknownCardType name => "Unknown card type '" ++ name ++ "'"
  | .unknownZone player zone => toString player ++ " has no zone '" ++ zone ++ "'"
  | .ruleNotFound name => "Rule definition '" ++ name ++ "' not found"
  | .attributeNotFound entity attr => entity ++ " has no attribute '" ++ attr ++ "'"
  | .cascadeLimitExceeded depth => "Trigger cascade exceeded depth " ++ toString depth
  | .gameNotRunning => "Match is not running"
  | .noPlayers => "No players registered"
  | .registrationClosed => "Registration is closed"
  | .matchFull => "Match is full"

end Fault

end CardArena
