import CardArena.Table

/-!
What conditions look at, and when they hold.

A card is looked at as a `Subject`: its design, its type, and its attributes, which are the current
ones of a card in play and the starting ones of any other.  A condition on an attribute that is not
there does not hold, and a condition on cards holds of no player, nor the reverse.
-/

namespace CardArena

/-- A card as conditions see it. -/
structure Subject where
  design : CardDesign
  cardType : CardType
  attributes : Attributes
deriving DecidableEq, Repr, Inhabited

namespace Subject

/-- A card that is not in play. -/
def ofDesign (design : CardDesign) (cardType : CardType) : Subject :=
  ⟨design, cardType, cardType.attributes⟩

/-- The effects of a card: those of its design, then those of its type. -/
def effects (s : Subject) : List Effect :=
  s.design.effects ++ s.cardType.effects

/-- The card carries the permanent rule of this name. -/
def hasPermanentEffect (catalog : Catalog) (name : String) (s : Subject) : Bool :=
  s.effects.any fun effect => effect.definition = name && catalog.isPermanent effect.definition

/-- The card is of this subtype. -/
def hasSubtype (name : String) (s : Subject) : Bool :=
  s.design.subtypes.contains name

end Subject

namespace Condition

/-- The condition holds of a player with these attributes. -/
def holdsForPlayer (attributes : Attributes) : Condition → Bool
  | .playerAttributeCompare op attr value =>
    (attributes.get? attr).any fun current => op.holds current value
  | _ => false

/-- The condition holds of a card. -/
def holdsForCard (catalog : Catalog) (subject : Subject) : Condition → Bool
  | .playerAttributeCompare .. => false
  | .cardHasPermanentEffect named negate => subject.hasPermanentEffect catalog named != negate
  | .cardHasSubtype named negate => subject.hasSubtype named != negate
  | .cardAttributeCompare op attr value =>
    (subject.attributes.get? attr).any fun current => op.holds current value

/-- Every condition holds of the player. -/
def allHoldForPlayer (conditions : List Condition) (attributes : Attributes) : Bool :=
  conditions.all (·.holdsForPlayer attributes)

/-- Every condition holds of the card. -/
def allHoldForCard (catalog : Catalog) (conditions : List Condition) (subject : Subject) : Bool :=
  conditions.all (·.holdsForCard catalog subject)

end Condition

namespace Table

/-- A card in play as conditions see it. -/
def subject? (t : Table) (catalog : Catalog) (id : LiveId) : Option Subject := do
  let live ← t.live? id
  let (design, cardType) ← catalog.typed? live.card
  return ⟨design, cardType, live.attributes⟩

/-- The last card that a player played, as conditions see it: the card in play that it became, or
its design once that has left play. -/
def lastPlayedSubject? (t : Table) (catalog : Catalog) (id : PlayerId) : Option Subject := do
  let last ← (← t.player? id).lastPlayed
  (last.live.bind (t.subject? catalog)) <|>
    (catalog.typed? last.card).map fun (design, cardType) => .ofDesign design cardType

end Table

namespace Effect

/-- The players whose doings a card of `owner` listens to, as far as they are connected. -/
def candidates (table : Table) (source : PlayerSource) (owner : PlayerId) : List Player :=
  table.connected.filter fun player => source.admits owner player.id

/-- The trigger conditions hold for the effect on a card in play.  Those of a trigger on players
have to hold of one of the players it listens to, or of the last card that one of them played;
those of any other trigger have to hold of the card itself. -/
def canFire (effect : Effect) (catalog : Catalog) (table : Table) (source : LiveId) : Bool :=
  match table.live? source with
  | none => false
  | some card =>
    match effect.trigger with
    | .playerPlayedCard _ filter =>
      (candidates table filter card.owner).any fun player =>
        (table.lastPlayedSubject? catalog player.id).any
          (Condition.allHoldForCard catalog effect.triggerConditions)
    | trigger =>
      match trigger.playerSource? with
      | some filter =>
        (candidates table filter card.owner).any fun player =>
          Condition.allHoldForPlayer effect.triggerConditions player.attributes
      | none =>
        (table.subject? catalog source).any
          (Condition.allHoldForCard catalog effect.triggerConditions)

/-- The target conditions hold of a player. -/
def acceptsPlayer (effect : Effect) (player : Player) : Bool :=
  Condition.allHoldForPlayer effect.targetConditions player.attributes

/-- The target conditions hold of a card. -/
def acceptsCard (effect : Effect) (catalog : Catalog) (subject : Subject) : Bool :=
  Condition.allHoldForCard catalog effect.targetConditions subject

/-- The effect can get at a card: the card is alive, and nothing on it keeps the effect off. -/
def reaches (effect : Effect) (catalog : Catalog) (untargetable : Option String) (alive : Bool)
    (subject : Subject) : Bool :=
  alive && match untargetable with
    | none => true
    | some name => effect.unavoidable || !subject.hasPermanentEffect catalog name

end Effect

end CardArena
