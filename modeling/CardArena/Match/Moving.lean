import CardArena.Match.Raising

/-!
Moving cards between zones.

Cards move one at a time from the top of one zone to the top of another.  A design that comes to a
dynamic zone becomes a card in play, and the card then hears that it came.  A card in play that goes
to a static zone hears first that it goes, while it is still where it was; only if it is still there
afterwards does it leave play.
-/

namespace CardArena

variable (rules : Rulebook) (resolve : Resolver)

/-- A card in play hears that it came into a zone or went out of it. -/
def raiseTransition (direction : Direction) (zone : String) (card : LiveId) : Play Unit :=
  raise rules resolve (.cardZoneTransition direction zone) card

/-- Brings a card of a design into play on top of a dynamic zone. -/
def enterZone (owner : PlayerId) (design : CardId) (zone : String) : Play LiveId := do
  match rules.catalog.typed? design with
  | none => throw (.unknownCard design)
  | some (card, cardType) =>
    let m ← get
    let (id, spawner) := m.spawner.spawn design owner
    if ((m.table.zone? owner zone).map Zone.kind) = some .dynamic then
      set { m with spawner }
      modify (·.onTable fun table =>
        (table.modifyZone owner zone (·.pushLive id)).insertLive (.spawn id card cardType owner))
      modify (·.broadcast (.cardSpawned id design owner zone))
      raiseTransition rules resolve .enter zone id
      pure id
    else
      set { m with spawner := spawner.despawn id }
      throw (.unknownZone owner zone)

/-- Takes the top card of a static zone; the card taken. -/
def takeTop (player : PlayerId) (zone : String) : Play (Option CardId) := do
  match (← get).table.zone? player zone with
  | none => pure none
  | some state =>
    match state.pile.popCard? with
    | none => pure none
    | some (card, pile) =>
      modify (·.onTable (·.modifyZone player zone ({ · with pile })))
      pure (some card)

/-- Moves the top card between static zones; whether there was one. -/
def moveStatic (player : PlayerId) (origin destination : String) : Play Bool := do
  match ← takeTop player origin with
  | none => pure false
  | some card =>
    modify (·.onTable (·.modifyZone player destination (·.pushCard card)))
    pure true

/-- Brings the top card of a static zone into play; whether there was one. -/
def moveIntoPlay (player : PlayerId) (origin destination : String) : Play Bool := do
  match ← takeTop player origin with
  | none => pure false
  | some card =>
    discard (enterZone rules resolve player card destination)
    pure true

/-- The card on top of a dynamic zone. -/
def topLive? (player : PlayerId) (zone : String) : Play (Option LiveId) := do
  return ((← get).table.zone? player zone).bind Zone.topLive?

/-- Takes the top card of a dynamic zone out of play, if it has not gone elsewhere when it has
heard; whether there was one. -/
def moveOutOfPlay (player : PlayerId) (origin destination : String) : Play Bool := do
  match ← topLive? player origin with
  | none => pure false
  | some card =>
    raiseTransition rules resolve .leave origin card
    let m ← get
    if ((m.table.zone? player origin).any (·.live.contains card)) then
      match m.despawn card with
      | (none, m) => set m
      | (some removed, m) =>
        set (m.onTable (·.modifyZone player destination (·.pushCard removed.card)))
    pure true

/-- Moves the top card between dynamic zones; whether there was one. -/
def moveBetweenDynamic (player : PlayerId) (origin destination : String) : Play Bool := do
  match ← topLive? player origin with
  | none => pure false
  | some card =>
    modify (·.onTable fun table =>
      (table.modifyZone player origin (·.removeLive card)).modifyZone player destination
        (·.pushLive card))
    raiseTransition rules resolve .leave origin card
    raiseTransition rules resolve .enter destination card
    pure true

/-- Moves the top card, by the kinds of the two zones; whether there was one. -/
def moveTop (kinds : ZoneKind × ZoneKind) (player : PlayerId) (origin destination : String) :
    Play Bool :=
  match kinds with
  | (.static, .static) => moveStatic player origin destination
  | (.static, .dynamic) => moveIntoPlay rules resolve player origin destination
  | (.dynamic, .static) => moveOutOfPlay rules resolve player origin destination
  | (.dynamic, .dynamic) => moveBetweenDynamic rules resolve player origin destination

/-- Takes a step up to so many times, until it has nothing to do; how often it had. -/
def repeatStep (step : Play Bool) : Nat → Play Nat
  | 0 => pure 0
  | n + 1 => do
    if ← step then
      return (← repeatStep step n) + 1
    else
      return 0

/-- Moves up to `count` cards, and no more than the origin holds now; how many moved. -/
def moveCards (player : PlayerId) (origin destination : String) (count : Nat) : Play Nat := do
  match (← get).table.player? player with
  | none => throw (.unknownPlayer player)
  | some seat =>
    match seat.zone? origin, seat.zone? destination with
    | none, _ => throw (.unknownZone player origin)
    | some _, none => throw (.unknownZone player destination)
    | some source, some target =>
      repeatStep (moveTop rules resolve (source.kind, target.kind) player origin destination)
        (min count source.size)

end CardArena
