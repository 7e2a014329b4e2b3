import CardArena.Match.Targets

/-!
Raising events: who listens, and what happens to a firing.

An event is raised on one card in play.  The effects of the card that listen for it are found once;
whether an effect may fire is asked when its turn comes, after the effects before it are done.
While a question is open a firing joins the line behind it; else it is done at once.
-/

namespace CardArena

namespace Catalog

/-- The effects of a card in play that listen for an event.  Permanent effects listen for none. -/
def listeners (c : Catalog) (card : LiveCard) (event : Event) : List Effect :=
  match c.typed? card.card with
  | none => []
  | some (design, cardType) =>
    (Subject.ofDesign design cardType).effects.filter fun effect =>
      !c.isPermanent effect.definition && effect.trigger.listensFor card.owner event

end Catalog

variable (rules : Rulebook) (resolve : Resolver)

/-- Does a firing, or lets it wait behind an open question. -/
def dispatch (firing : Firing) : Play Unit := do
  if (← get).session.isIdle then
    resolve firing
  else
    modify fun m => { m with session := m.session.enqueue firing }

/-- Lets an effect fire if its trigger conditions hold now. -/
def offer (source : LiveId) (effect : Effect) : Play Unit := do
  if effect.canFire rules.catalog (← get).table source then
    dispatch resolve ⟨effect, source⟩

/-- Raises an event on a card in play. -/
def raise (event : Event) (source : LiveId) : Play Unit := do
  match (← get).table.live? source with
  | none => pure ()
  | some card => (rules.catalog.listeners card event).forM (offer rules resolve source)

/-- Raises an event on one of all cards, unless the card is dead or gone by now. -/
def raiseIfAlive (event : Event) (card : LiveId) : Play Unit := do
  if (← get).table.isAlive card then
    raise rules resolve event card

/-- Raises an event on every living card in play, in the order of the table. -/
def raiseOnAll (event : Event) : Play Unit := do
  (← get).table.liveInOrder.forM (raiseIfAlive rules resolve event)

end CardArena
