import CardArena.Match.Raising

/-!
Writing attributes.  A write that changes a player's attribute is announced to every living card.
A write to a card is announced to that card: first the change, if there is one, then one event for
each comparison, changed or not.
-/

namespace CardArena

/-- The value of a player's attribute. -/
def playerAttribute (player : PlayerId) (attr : String) : Play Amount := do
  match (← get).table.player? player with
  | none => throw (.unknownPlayer player)
  | some seat =>
    match seat.attributes.get? attr with
    | none => throw (.attributeNotFound (toString player) attr)
    | some value => pure value

/-- The value of the attribute of a card in play. -/
def cardAttribute (card : LiveId) (attr : String) : Play Amount := do
  match (← get).table.live? card with
  | none => throw (.unknownLiveCard card)
  | some live =>
    match live.attributes.get? attr with
    | none => throw (.attributeNotFound (toString card) attr)
    | some value => pure value

variable (rules : Rulebook) (resolve : Resolver)

/-- Writes a player's attribute. -/
def setPlayerAttribute (player : PlayerId) (attr : String) (value : Amount) :
    Play Unit := do
  let old ← playerAttribute player attr
  modify (·.onTable (·.modifyPlayer player fun seat =>
    { seat with attributes := seat.attributes.set attr value }))
  match Direction.between? old value with
  | none => pure ()
  | some direction =>
    raiseOnAll rules resolve (.playerAttributeDelta direction attr player)

/-- Writes the attribute of a card in play. -/
def setCardAttribute (card : LiveId) (attr : String) (value : Amount) : Play Unit := do
  let old ← cardAttribute card attr
  modify (·.onTable (·.modifyLive card fun live =>
    { live with attributes := live.attributes.set attr value }))
  match Direction.between? old value with
  | none => pure ()
  | some direction => raise rules resolve (.cardAttributeDelta direction attr) card
  Comparison.all.forM fun op =>
    raise rules resolve (.cardAttributeCompare op attr value) card

/-- Changes a player's attribute by way of its old value. -/
def changePlayerAttribute (player : PlayerId) (attr : String) (change : Amount → Amount) :
    Play Unit := do
  let old ← playerAttribute player attr
  setPlayerAttribute rules resolve player attr (change old)

/-- Changes the attribute of a card in play by way of its old value. -/
def changeCardAttribute (card : LiveId) (attr : String) (change : Amount → Amount) :
    Play Unit := do
  let old ← cardAttribute card attr
  setCardAttribute rules resolve card attr (change old)

end CardArena
