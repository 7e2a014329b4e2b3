import CardArena.Match.Moving

/-!
How cards in play die and change.

A killed card is dead at once and hears that it leaves, but stays in its zone until its destruction
is due.  A transformed card hears that it leaves and then gives its place to a new card.
-/

namespace CardArena

variable (rules : Rulebook) (resolve : Resolver)

namespace DestructionReason

/-- How many turn ends a card stays. -/
def delay (config : Config) : DestructionReason → UInt32
  | .killed => config.destructionDelay
  | .afterEffect => 0

end DestructionReason

/-- Marks a card dead and puts it in the queue. -/
def Match.condemn (m : Match) (delay : UInt32) (reason : DestructionReason) (card : LiveId) :
    Match :=
  { m with
    table := m.table.modifyLive card ({ · with alive := false })
    destructions := m.destructions.schedule card delay reason }

/-- Kills a card in play.  A card on its way out cannot be killed again. -/
def killFor (reason : DestructionReason) (card : LiveId) : Play Unit := do
  let m ← get
  if m.destructions.contains card || (m.table.live? card).isNone then
    pure ()
  else
    modify (·.condemn (reason.delay rules.config) reason card)
    modify (·.broadcast (.cardKilled card))
    match (← get).table.locate? card with
    | none => pure ()
    | some (_, zone) => raiseTransition rules resolve .leave zone card

/-- Kills a card in play. -/
def kill (card : LiveId) : Play Unit :=
  killFor rules resolve .killed card

/-- Puts a new card of another design in the place of a card in play; its handle, or nothing if the
card is in no zone. -/
def transform (card : LiveId) (into : String) : Play (Option LiveId) := do
  match (← get).table.locate? card with
  | none => pure none
  | some (owner, zone) =>
    match rules.catalog.cardNamed? into with
    | none => throw (.unknownCardName into)
    | some design =>
      match rules.catalog.cardType? design.cardType with
      | none => throw (.unknownCardType design.cardType)
      | some cardType =>
        modify fun m =>
          { m with
            table := m.table.modifyLive card ({ · with alive := false })
            destructions := m.destructions.cancel card }
        raiseTransition rules resolve .leave zone card
        let m ← get
        let (id, spawner) := m.spawner.spawn design.id owner
        set { m with spawner }
        modify (·.onTable fun table =>
          (table.insertLive (.spawn id design cardType owner)).modifyZone owner zone
            (·.swapLive card id))
        modify fun m => (m.despawn card).2
        modify (·.broadcast (.cardTransformed card id design.id))
        raiseTransition rules resolve .enter zone id
        pure (some id)

/-- Brings a new card of a named design into play for a player. -/
def createToken (owner : PlayerId) (name : String) : Play LiveId := do
  match rules.catalog.cardNamed? name with
  | none => throw (.unknownCardName name)
  | some design => enterZone rules resolve owner design.id rules.config.boardZone

end CardArena
