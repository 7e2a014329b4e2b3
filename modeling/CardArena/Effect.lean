import CardArena.Trigger

/-!
Effects: what a card does, when, under which conditions, to whom, and how strongly.

An effect names a rule of the catalog.  Its trigger conditions have to hold for it to fire and its
target conditions have to hold of whatever it is done to.
-/

namespace CardArena

/-- What has to hold of a player or a card. -/
inductive Condition where
  | playerAttributeCompare (op : Comparison) (attr : String) (value : Amount)
  | cardHasPermanentEffect (named : String) (negate : Bool)
  | cardHasSubtype (named : String) (negate : Bool)
  | cardAttributeCompare (op : Comparison) (attr : String) (value : Amount)
deriving DecidableEq, Repr, Inhabited

namespace Condition

/-- What the condition looks at. -/
def subjectKind : Condition → SubjectKind
  | .playerAttributeCompare .. => .player
  | _ => .card

end Condition

/-- How strong an effect is. -/
inductive Magnitude where
  | fixed (value : Amount)
  /-- Any amount between two bounds, both included. -/
  | random (low high : Amount)
deriving DecidableEq, Repr, Inhabited

/-- Which players an effect is done to. -/
inductive PlayerTarget where
  | currentPlayer
  | currentOpponent
  | allPlayers
  | randomPlayer
  /-- A player whom the current player names. -/
  | targetPlayer
deriving DecidableEq, Repr, Inhabited

/-- Which cards an effect is done to. -/
inductive CardTarget where
  | thisCard
  | allCards
  | allCurrentPlayerCards
  | allCurrentOpponentCards
  | randomCard
  /-- A card that the current player names. -/
  | targetCard
  /-- A card of their own that the current player names. -/
  | currentPlayerCard
  /-- A card of someone else that the current player names. -/
  | currentOpponentCard
deriving DecidableEq, Repr, Inhabited

/-- What an effect is done to. -/
inductive EffectTarget where
  | untargeted
  | player (target : PlayerTarget)
  | card (target : CardTarget)
deriving DecidableEq, Repr, Inhabited

namespace PlayerTarget

/-- The current player has to name the target. -/
def requiresChoice : PlayerTarget → Bool
  | .targetPlayer => true
  | _ => false

end PlayerTarget

namespace CardTarget

/-- The current player has to name the target. -/
def requiresChoice : CardTarget → Bool
  | .targetCard => true
  | .currentPlayerCard => true
  | .currentOpponentCard => true
  | _ => false

end CardTarget

namespace EffectTarget

/-- The current player has to name the target. -/
def requiresChoice : EffectTarget → Bool
  | .untargeted => false
  | .player target => target.requiresChoice
  | .card target => target.requiresChoice

end EffectTarget

/-- One effect on a card design or a card type. -/
structure Effect where
  /-- The name of the rule that says what is done. -/
  definition : String
  trigger : Trigger
  triggerConditions : List Condition := []
  targetConditions : List Condition := []
  /-- The effect reaches cards that are otherwise out of reach. -/
  unavoidable : Bool := false
  target : EffectTarget := .untargeted
  magnitude : Option Magnitude := none
deriving DecidableEq, Repr, Inhabited

namespace Effect

/-- The effect done to players. -/
def targetingPlayer (e : Effect) (target : PlayerTarget) : Effect :=
  { e with target := .player target }

/-- The effect done to cards. -/
def targetingCard (e : Effect) (target : CardTarget) : Effect :=
  { e with target := .card target }

/-- The effect with a magnitude. -/
def withMagnitude (e : Effect) (magnitude : Magnitude) : Effect :=
  { e with magnitude := some magnitude }

/-- The effect with a fixed magnitude. -/
def withValue (e : Effect) (value : Amount) : Effect :=
  e.withMagnitude (.fixed value)

/-- The effect with one more trigger condition. -/
def withTriggerCondition (e : Effect) (condition : Condition) : Effect :=
  { e with triggerConditions := e.triggerConditions ++ [condition] }

/-- The effect with one more target condition. -/
def withTargetCondition (e : Effect) (condition : Condition) : Effect :=
  { e with targetConditions := e.targetConditions ++ [condition] }

/-- The effect made unavoidable. -/
def asUnavoidable (e : Effect) : Effect :=
  { e with unavoidable := true }

end Effect

end CardArena
