import CardArena.Amount

/-!
Scheduled actions: what happens by itself when a match or a turn starts, or a turn ends.
-/

namespace CardArena

/-- Which players a scheduled action is done to. -/
inductive PlayerGroup where
  | currentPlayer
  | currentOpponents
  | allPlayers
deriving DecidableEq, Repr, Inhabited

/-- What is done to each of them. -/
inductive GameAction where
  | increaseAttribute (attr : String) (value : Amount)
  | decreaseAttribute (attr : String) (value : Amount)
  | setAttribute (attr : String) (value : Amount)
  | moveCards (origin destination : String) (count : UInt32)
  | shuffleZone (zone : String)
deriving DecidableEq, Repr, Inhabited

/-- An action and whom it is done to. -/
structure ScheduledAction where
  target : PlayerGroup
  action : GameAction
deriving DecidableEq, Repr, Inhabited

namespace GameAction

/-- The zones that the action names. -/
def zones : GameAction → List String
  | .moveCards origin destination _ => [origin, destination]
  | .shuffleZone zone => [zone]
  | _ => []

end GameAction

end CardArena
