import CardArena.Dice
import CardArena.Identifier

/-!
Zones: the piles of a player.

A static zone holds card designs, a dynamic zone holds cards in play; the last member is on top.
An operation for the other kind is refused and then changes nothing: operations that may refuse
give an `Option`.
-/

namespace CardArena

/-- What a zone holds. -/
inductive ZoneKind where
  | static
  | dynamic
deriving DecidableEq, Repr, Inhabited

/-- A zone that every player has. -/
structure ZoneLayout where
  name : String
  /-- Other players see only how many cards it holds. -/
  isPrivate : Bool := false
  kind : ZoneKind
deriving DecidableEq, Repr, Inhabited

namespace ZoneLayout

/-- The layout of a static zone. -/
def static (name : String) (isPrivate : Bool) : ZoneLayout :=
  ⟨name, isPrivate, .static⟩

/-- The layout of a dynamic zone, which is public. -/
def dynamic (name : String) : ZoneLayout :=
  ⟨name, false, .dynamic⟩

end ZoneLayout

/-- The members of a zone, the last on top. -/
inductive Pile where
  | static (cards : List CardId)
  | dynamic (cards : List LiveId)
deriving DecidableEq, Repr, Inhabited

namespace Pile

/-- No cards, of the given kind. -/
def empty : ZoneKind → Pile
  | .static => .static []
  | .dynamic => .dynamic []

/-- What the pile holds. -/
def kind : Pile → ZoneKind
  | .static _ => .static
  | .dynamic _ => .dynamic

/-- How many cards the pile holds. -/
def size : Pile → Nat
  | .static cards => cards.length
  | .dynamic cards => cards.length

/-- The designs in a static pile. -/
def cards : Pile → List CardId
  | .static cards => cards
  | .dynamic _ => []

/-- The cards in a dynamic pile. -/
def live : Pile → List LiveId
  | .static _ => []
  | .dynamic cards => cards

/-- The pile with a design on top. -/
def pushCard? (card : CardId) : Pile → Option Pile
  | .static cards => some (.static (cards ++ [card]))
  | .dynamic _ => none

/-- The pile with a card in play on top. -/
def pushLive? (card : LiveId) : Pile → Option Pile
  | .static _ => none
  | .dynamic cards => some (.dynamic (cards ++ [card]))

/-- The design on top, and the pile below it. -/
def popCard? : Pile → Option (CardId × Pile)
  | .static cards => cards.getLast?.map (·, .static cards.dropLast)
  | .dynamic _ => none

/-- The pile without the lowest copy of a design. -/
def removeCard? (card : CardId) : Pile → Option Pile
  | .static cards => if card ∈ cards then some (.static (cards.erase card)) else none
  | .dynamic _ => none

/-- The pile without the lowest entry of a card in play. -/
def removeLive? (card : LiveId) : Pile → Option Pile
  | .static _ => none
  | .dynamic cards => if card ∈ cards then some (.dynamic (cards.erase card)) else none

/-- The pile with another card in play in the place of one. -/
def replaceLive? (old new : LiveId) : Pile → Option Pile
  | .static _ => none
  | .dynamic cards => if old ∈ cards then some (.dynamic (cards.replace old new)) else none

/-- The pile in another order. -/
def shuffle (dice : Dice) : Pile → Pile × Dice
  | .static cards => let (cards, dice) := dice.shuffle cards; (.static cards, dice)
  | .dynamic cards => let (cards, dice) := dice.shuffle cards; (.dynamic cards, dice)

end Pile

/-- A zone of one player. -/
structure Zone where
  name : String
  isPrivate : Bool
  pile : Pile
deriving DecidableEq, Repr, Inhabited

namespace Zone

/-- An empty zone. -/
def ofLayout (layout : ZoneLayout) : Zone :=
  ⟨layout.name, layout.isPrivate, .empty layout.kind⟩

/-- What the zone holds. -/
def kind (z : Zone) : ZoneKind := z.pile.kind

/-- How many cards the zone holds. -/
def size (z : Zone) : Nat := z.pile.size

/-- The designs in a static zone. -/
def cards (z : Zone) : List CardId := z.pile.cards

/-- The cards in a dynamic zone. -/
def live (z : Zone) : List LiveId := z.pile.live

/-- The card in play on top. -/
def topLive? (z : Zone) : Option LiveId := z.live.getLast?

/-- The zone with a changed pile, or as it was if the change is refused. -/
def update (z : Zone) (change : Pile → Option Pile) : Zone :=
  { z with pile := (change z.pile).getD z.pile }

/-- The zone with a design on top; a dynamic zone stays as it is. -/
def pushCard (z : Zone) (card : CardId) : Zone :=
  z.update (·.pushCard? card)

/-- The zone with a card in play on top; a static zone stays as it is. -/
def pushLive (z : Zone) (card : LiveId) : Zone :=
  z.update (·.pushLive? card)

/-- The zone without the lowest copy of a design. -/
def removeCard (z : Zone) (card : CardId) : Zone :=
  z.update (·.removeCard? card)

/-- The zone without the lowest entry of a card in play. -/
def removeLive (z : Zone) (card : LiveId) : Zone :=
  z.update (·.removeLive? card)

/-- The zone with another card in play in the place of one, or on top if that one is not there. -/
def swapLive (z : Zone) (old new : LiveId) : Zone :=
  z.update fun pile => pile.replaceLive? old new <|> pile.pushLive? new

end Zone

end CardArena
