/-!
Rules: the named things that effects can do.

A permanent rule does nothing by itself; conditions ask for it.  Of the others, one kind is done to
players, one to cards, and one to nobody.
-/

namespace CardArena

/-- What a rule can do to a player, by the strength of the effect. -/
inductive PlayerAction where
  | increaseAttribute (attr : String)
  | decreaseAttribute (attr : String)
  | setAttribute (attr : String)
  /-- Moves as many cards as the effect is strong. -/
  | moveCards (origin destination : String)
deriving DecidableEq, Repr, Inhabited

/-- What a rule can do to a card in play. -/
inductive CardAction where
  | addCounter (attr : String)
  | removeCounter (attr : String)
  | setAttribute (attr : String)
  | kill
  /-- Puts another design in the place of the card. -/
  | transform (into : String)
deriving DecidableEq, Repr, Inhabited

/-- What a rule can do without a target. -/
inductive GeneralAction where
  /-- Puts a new card of a design into play. -/
  | createToken (card : String)
deriving DecidableEq, Repr, Inhabited

/-- What a rule does, and to whom. -/
inductive RuleKind where
  | permanent
  | targetsPlayer (action : PlayerAction)
  /-- Done to cards; a card that a player names may have to be of one type. -/
  | targetsCard (action : CardAction) (targetCardType : Option String)
  | general (action : GeneralAction)
deriving DecidableEq, Repr, Inhabited

/-- The kind of a rule without its action. -/
inductive RuleCategory where
  | permanent
  | targetsPlayer
  | targetsCard
  | general
deriving DecidableEq, Repr, Inhabited

/-- A named rule. -/
structure Rule where
  name : String
  kind : RuleKind
deriving DecidableEq, Repr, Inhabited

namespace RuleCategory

/-- The name of the category. -/
def name : RuleCategory → String
  | .permanent => "Permanent"
  | .targetsPlayer => "TargetsPlayer"
  | .targetsCard => "TargetsCard"
  | .general => "General"

end RuleCategory

namespace PlayerAction

/-- The attribute that the action writes. -/
def attr? : PlayerAction → Option String
  | .increaseAttribute attr => some attr
  | .decreaseAttribute attr => some attr
  | .setAttribute attr => some attr
  | .moveCards .. => none

end PlayerAction

namespace CardAction

/-- The attribute that the action writes. -/
def attr? : CardAction → Option String
  | .addCounter attr => some attr
  | .removeCounter attr => some attr
  | .setAttribute attr => some attr
  | .kill => none
  | .transform _ => none

end CardAction

namespace Rule

/-- A rule that is only asked for. -/
def permanent (name : String) : Rule :=
  ⟨name, .permanent⟩

/-- A rule that is done to players. -/
def onPlayer (name : String) (action : PlayerAction) : Rule :=
  ⟨name, .targetsPlayer action⟩

/-- A rule that is done to cards of any type. -/
def onCard (name : String) (action : CardAction) : Rule :=
  ⟨name, .targetsCard action none⟩

/-- A rule without a target. -/
def general (name : String) (action : GeneralAction) : Rule :=
  ⟨name, .general action⟩

/-- Restricts the targets that a player may name for a card rule; other rules stay as they are. -/
def withTargetCardType (r : Rule) (cardType : String) : Rule :=
  match r.kind with
  | .targetsCard action _ => { r with kind := .targetsCard action (some cardType) }
  | _ => r

/-- The category of the rule. -/
def category (r : Rule) : RuleCategory :=
  match r.kind with
  | .permanent => .permanent
  | .targetsPlayer _ => .targetsPlayer
  | .targetsCard _ _ => .targetsCard
  | .general _ => .general

/-- The attribute that the rule writes. -/
def attr? (r : Rule) : Option String :=
  match r.kind with
  | .targetsPlayer action => action.attr?
  | .targetsCard action _ => action.attr?
  | _ => none

/-- An effect of this rule has to say how strong it is. -/
def needsMagnitude (r : Rule) : Bool :=
  match r.kind with
  | .targetsPlayer _ => true
  | .targetsCard action _ => action.attr?.isSome
  | _ => false

/-- The type that a card has to have to be named as target. -/
def targetCardType? (r : Rule) : Option String :=
  match r.kind with
  | .targetsCard _ targetCardType => targetCardType
  | _ => none

end Rule

end CardArena
