import CardArena.Catalog.Draft

/-!
The catalog of a game, and how its entries are found.

A catalog is a checked draft (`Catalog.ofDraft`), with the designs in the order of their numbers.
-/

namespace CardArena

/-- The rules, types, designs and layout that a match is played with. -/
structure Catalog where
  rules : List Rule := []
  cardTypes : List CardType := []
  /-- The designs, by number. -/
  cards : List CardDesign := []
  playerAttributes : List PlayerAttribute := []
  zones : List ZoneLayout := []
  gameStartActions : List ScheduledAction := []
  turnStartActions : List ScheduledAction := []
  turnEndActions : List ScheduledAction := []
deriving DecidableEq, Repr, Inhabited

namespace Catalog

/-- The rule of a name. -/
def rule? (c : Catalog) (name : String) : Option Rule :=
  c.rules.find? (·.name = name)

/-- The card type of a name. -/
def cardType? (c : Catalog) (name : String) : Option CardType :=
  c.cardTypes.find? (·.name = name)

/-- The design of a number. -/
def card? (c : Catalog) (id : CardId) : Option CardDesign :=
  c.cards.find? (·.id = id)

/-- The design of a name. -/
def cardNamed? (c : Catalog) (name : String) : Option CardDesign :=
  c.cards.find? (·.name = name)

/-- The design of a number together with its type. -/
def typed? (c : Catalog) (id : CardId) : Option (CardDesign × CardType) := do
  let design ← c.card? id
  let cardType ← c.cardType? design.cardType
  return (design, cardType)

/-- The zone of a name. -/
def zone? (c : Catalog) (name : String) : Option ZoneLayout :=
  c.zones.find? (·.name = name)

/-- The name is that of a permanent rule. -/
def isPermanent (c : Catalog) (name : String) : Bool :=
  (c.rule? name).any (·.category = .permanent)

end Catalog

end CardArena
