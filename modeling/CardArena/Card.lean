import CardArena.Attributes
import CardArena.Effect
import CardArena.Identifier

/-!
Card types and card designs, and the attributes of players: the printed data of the game.
-/

namespace CardArena

/-- What all designs of one type have in common. -/
structure CardType where
  name : String
  /-- A card of this type dies once one of its effects has been done. -/
  destroyAfterEffect : Bool := false
  /-- The attributes that a card of this type comes into play with. -/
  attributes : Attributes := .empty
  effects : List Effect := []
deriving DecidableEq, Repr, Inhabited

/-- What a player gives up to play a card. -/
structure Cost where
  attr : String
  amount : Amount
deriving DecidableEq, Repr, Inhabited

/-- One card as printed. -/
structure CardDesign where
  id : CardId
  name : String
  cardType : String
  maxCopies : UInt32 := 3
  rarity : String := ""
  subtypes : List String := []
  effects : List Effect := []
  costs : List Cost := []
deriving DecidableEq, Repr, Inhabited

/-- An attribute of every player, with the value it starts at. -/
structure PlayerAttribute where
  name : String
  baseValue : Amount := 0
deriving DecidableEq, Repr, Inhabited

namespace CardType

/-- The type with an attribute, which overwrites one of the same name. -/
def withAttribute (t : CardType) (name : String) (value : Amount) : CardType :=
  { t with attributes := t.attributes.set name value }

/-- The type with one more effect. -/
def withEffect (t : CardType) (effect : Effect) : CardType :=
  { t with effects := t.effects ++ [effect] }

/-- The type, made to die after its effects. -/
def dyingAfterEffect (t : CardType) : CardType :=
  { t with destroyAfterEffect := true }

end CardType

namespace CardDesign

/-- The design with one more subtype. -/
def withSubtype (d : CardDesign) (subtype : String) : CardDesign :=
  { d with subtypes := d.subtypes ++ [subtype] }

/-- The design with one more effect. -/
def withEffect (d : CardDesign) (effect : Effect) : CardDesign :=
  { d with effects := d.effects ++ [effect] }

/-- The design with one more cost. -/
def withCost (d : CardDesign) (attr : String) (amount : Amount) : CardDesign :=
  { d with costs := d.costs ++ [⟨attr, amount⟩] }

/-- The design with a rarity. -/
def withRarity (d : CardDesign) (rarity : String) : CardDesign :=
  { d with rarity := rarity }

/-- The design with a limit of copies. -/
def withMaxCopies (d : CardDesign) (maxCopies : UInt32) : CardDesign :=
  { d with maxCopies := maxCopies }

end CardDesign

namespace Attributes

/-- Each cost for itself is covered by the amount that is there. -/
def canPay (a : Attributes) (costs : List Cost) : Bool :=
  costs.all fun cost => (a.get? cost.attr).any fun available => cost.amount ≤ available

end Attributes

end CardArena
