/-!
Settings of a match that are no rule of the game.
-/

namespace CardArena

/-- The settings of a match. -/
structure Config where
  /-- How many seconds a turn may take. -/
  turnSeconds : UInt64 := 60
  maxHandSize : UInt64 := 7
  /-- How many firings may be nested. -/
  maxCascadeDepth : UInt64 := 64
  /-- How many turns a killed card stays before it is taken away. -/
  destructionDelay : UInt32 := 3
  playersPerMatch : UInt64 := 2
  /-- The seed of the dice; any if absent. -/
  seed : Option UInt64 := none
  deckZone : String := "Deck"
  handZone : String := "Hand"
  boardZone : String := "Board"
  /-- Where used cards go; out of the game if absent. -/
  graveyardZone : Option String := some "Graveyard"
  /-- A player in whom this attribute is used up is defeated. -/
  defeatAttribute : Option String := none
  /-- The permanent rule that keeps avoidable effects off a card. -/
  untargetableEffect : Option String := none
deriving DecidableEq, Repr, Inhabited

namespace Config

/-- How many milliseconds a turn may take. -/
def turnMillis (c : Config) : Nat :=
  c.turnSeconds.toNat * 1000

end Config

end CardArena
