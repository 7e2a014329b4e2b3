import CardArena.Match.Cascade

/-!
What the active player may do with their cards: move them and play them.
-/

namespace CardArena

variable (rules : Rulebook) (resolve : Resolver)

namespace Table

/-- Why a player may not act, if they may not. -/
def refusal? (t : Table) (player : PlayerId) : Option Refusal :=
  if !t.isRunning then some .gameNotRunning
  else if t.activePlayer? ≠ some player then some .notActivePlayer
  else none

end Table

/-- The active player moves cards between zones of their own. -/
def requestMove (player : PlayerId) (origin destination : String) (count : Nat) :
    Play Outcome := do
  let m ← get
  match m.table.refusal? player with
  | some reason => pure (.rejected reason)
  | none =>
    if (m.table.zone? player origin).isNone || (m.table.zone? player destination).isNone then
      pure (.rejected .unknownZone)
    else
      discard (moveCards rules resolve player origin destination count)
      modify (·.broadcastState)
      pure .applied

/-- Takes the costs of a card from a player, one after the other. -/
def payCosts (player : PlayerId) (costs : List Cost) : Play Unit :=
  costs.forM fun cost =>
    changePlayerAttribute rules resolve player cost.attr (·.less cost.amount)

/-- Puts a card that has been taken from hand and paid for onto the board, and lets every card
know. -/
def putIntoPlay (player : PlayerId) (design : CardDesign) : Play Unit := do
  let id ← enterZone rules resolve player design.id rules.config.boardZone
  modify fun m => m.onTable (·.modifyPlayer player fun seat =>
    { seat with lastPlayed := some ⟨design.id, (m.table.live? id).map LiveCard.id⟩ })
  raiseOnAll rules resolve (.playerPlayedCard player design.id design.cardType)

/-- The active player plays a card from their hand. -/
def playCard (player : PlayerId) (card : CardId) : Play Outcome := do
  let m ← get
  match m.table.refusal? player with
  | some reason => pure (.rejected reason)
  | none =>
    if !(m.table.zone? player rules.config.handZone).any (·.cards.contains card) then
      pure (.rejected .cardNotInHand)
    else
      match rules.catalog.card? card with
      | none => throw (.unknownCard card)
      | some design =>
        if !(m.table.player? player).any (·.attributes.canPay design.costs) then
          pure (.rejected .cannotPay)
        else
          modify (·.onTable (·.modifyZone player rules.config.handZone (·.removeCard card)))
          payCosts rules resolve player design.costs
          putIntoPlay rules resolve player design
          modify (·.broadcastState)
          pure .applied

end CardArena
