import CardArena.Card
import CardArena.Rule
import CardArena.Schedule
import CardArena.Zone

/-!
The entries of a catalog before anyone has checked that they fit together.
-/

namespace CardArena

/-- Entries of a catalog, unchecked. -/
structure Draft where
  rules : List Rule := []
  cardTypes : List CardType := []
  cards : List CardDesign := []
  playerAttributes : List PlayerAttribute := []
  zones : List ZoneLayout := []
  gameStartActions : List ScheduledAction := []
  turnStartActions : List ScheduledAction := []
  turnEndActions : List ScheduledAction := []
deriving DecidableEq, Repr, Inhabited

namespace Draft

def addRule (d : Draft) (rule : Rule) : Draft :=
  { d with rules := d.rules ++ [rule] }

def addCardType (d : Draft) (cardType : CardType) : Draft :=
  { d with cardTypes := d.cardTypes ++ [cardType] }

def addCard (d : Draft) (card : CardDesign) : Draft :=
  { d with cards := d.cards ++ [card] }

def addPlayerAttribute (d : Draft) (name : String) (baseValue : Amount) : Draft :=
  { d with playerAttributes := d.playerAttributes ++ [⟨name, baseValue⟩] }

def addZone (d : Draft) (zone : ZoneLayout) : Draft :=
  { d with zones := d.zones ++ [zone] }

def addGameStartAction (d : Draft) (action : ScheduledAction) : Draft :=
  { d with gameStartActions := d.gameStartActions ++ [action] }

def addTurnStartAction (d : Draft) (action : ScheduledAction) : Draft :=
  { d with turnStartActions := d.turnStartActions ++ [action] }

def addTurnEndAction (d : Draft) (action : ScheduledAction) : Draft :=
  { d with turnEndActions := d.turnEndActions ++ [action] }

/-- Every scheduled action, in the order of the moments they belong to. -/
def scheduled (d : Draft) : List ScheduledAction :=
  d.gameStartActions ++ d.turnStartActions ++ d.turnEndActions

end Draft

end CardArena
