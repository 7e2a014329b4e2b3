import CardArena.Match.Dying
import CardArena.Match.Writing

/-!
Doing effects.

`resolveEffect` does one firing, given how the firings that it sets off are done.
`resolveFiring room` ties the knot: a firing may set off others, nested no deeper than `room`, and
the one that is one too many fails.  So every way back from an effect to an effect spends room, and
every cascade ends.
-/

namespace CardArena

variable (rules : Rulebook) (resolve : Resolver)

/-- Does a player action to one player. -/
def applyPlayerAction (action : PlayerAction) (magnitude : Amount) (player : PlayerId) :
    Play Unit :=
  match action with
  | .increaseAttribute attr =>
    changePlayerAttribute rules resolve player attr (·.plus magnitude)
  | .decreaseAttribute attr =>
    changePlayerAttribute rules resolve player attr (·.less magnitude)
  | .setAttribute attr => setPlayerAttribute rules resolve player attr magnitude
  | .moveCards origin destination =>
    discard (moveCards rules resolve player origin destination magnitude.toCount)

/-- Does a card action to one card; nothing if the card has left play. -/
def applyCardAction (action : CardAction) (magnitude : Amount) (card : LiveId) : Play Unit := do
  if ((← get).table.live? card).isSome then
    match action with
    | .addCounter attr => changeCardAttribute rules resolve card attr (·.plus magnitude)
    | .removeCounter attr =>
      changeCardAttribute rules resolve card attr (·.less magnitude)
    | .setAttribute attr => setCardAttribute rules resolve card attr magnitude
    | .kill => kill rules resolve card
    | .transform into => discard (transform rules resolve card into)

/-- What follows an effect that has been done: its card dies if it is of a type that does, and
every player sees the table. -/
def finishEffect (source : LiveId) : Play Unit := do
  let type := ((← get).table.live? source).bind fun card => rules.catalog.typed? card.card
  if type.any fun (_, cardType) => cardType.destroyAfterEffect then
    killFor rules resolve .afterEffect source
  modify (·.broadcastState)

/-- Asks the active player for the target of an effect.  The effect is dropped if nobody is there
to ask, or if there is nothing to name. -/
def askForTarget (kind : TargetKind) (firing : Firing) : Play Unit := do
  let m ← get
  match m.table.activePlayer? with
  | none => pure ()
  | some chooser =>
    let selection : Selection := ⟨kind, firing.effect, firing.source, chooser⟩
    if (m.table.player? chooser).any Player.isConnected && selection.isAnswerable rules m.table then
      set { m with session.pending := some selection }
      modify (·.tell chooser selection.question)

/-- Does an effect of a card in play. -/
def resolveEffect (firing : Firing) : Play Unit := do
  match rules.catalog.rule? firing.effect.definition with
  | none => throw (.ruleNotFound firing.effect.definition)
  | some rule =>
    match rule.kind, firing.effect.target with
    | .permanent, _ => pure ()
    | .general (.createToken name), _ =>
      match (← get).table.live? firing.source with
      | none => pure ()
      | some card =>
        discard (createToken rules resolve card.owner name)
        finishEffect rules resolve firing.source
    | .targetsPlayer action, .player target =>
      if target.requiresChoice then
        askForTarget rules .player firing
      else
        let magnitude ← modifyGet (·.roll firing.effect)
        let players ← modifyGet (·.automaticPlayers firing.effect target)
        players.forM (applyPlayerAction rules resolve action magnitude)
        finishEffect rules resolve firing.source
    | .targetsCard action _, .card target =>
      if target.requiresChoice then
        askForTarget rules .card firing
      else
        let magnitude ← modifyGet (·.roll firing.effect)
        let cards ← modifyGet (·.automaticCards rules firing.effect target firing.source)
        cards.forM (applyCardAction rules resolve action magnitude)
        finishEffect rules resolve firing.source
    | _, _ => pure ()

/-- Does a step one level deeper in the cascade, and comes back up whether or not it fails. -/
def deeper (step : Play Unit) : Play Unit := do
  modify fun m => { m with cascadeDepth := m.cascadeDepth + 1 }
  try
    step
  finally
    modify fun m => { m with cascadeDepth := m.cascadeDepth - 1 }

/-- Does a firing and all that it sets off, nested no deeper than `room`. -/
def resolveFiring : Nat → Resolver
  | 0, _ => do throw (.cascadeLimitExceeded (← get).cascadeDepth)
  | room + 1, firing => deeper (resolveEffect rules (resolveFiring room) firing)

/-- Does a firing with all the room that the settings leave. -/
def Rulebook.resolver : Resolver := fun firing => do
  resolveFiring rules (rules.config.maxCascadeDepth.toNat - (← get).cascadeDepth) firing

end CardArena
