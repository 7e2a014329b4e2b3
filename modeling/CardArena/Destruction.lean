import CardArena.Identifier

/-!
Cards on their way out of play.

A killed card is taken away after a number of turn ends; a card that dies after its effect is taken
away at the next one.  A card is in the queue at most once, and the first reason stands.
-/

namespace CardArena

/-- Why a card will be taken away. -/
inductive DestructionReason where
  | killed
  | afterEffect
deriving DecidableEq, Repr, Inhabited

/-- A card on its way out. -/
structure Doomed where
  card : LiveId
  /-- How many turn ends are left, for a killed card. -/
  remaining : UInt32
  reason : DestructionReason
deriving DecidableEq, Repr, Inhabited

/-- The cards on their way out, in the order in which they died. -/
structure DestructionQueue where
  entries : List Doomed := []
deriving DecidableEq, Repr, Inhabited

namespace Doomed

/-- The entry after one more turn end. -/
def countedDown (d : Doomed) : Doomed :=
  match d.reason with
  | .killed => { d with remaining := d.remaining - min d.remaining 1 }
  | .afterEffect => d

/-- The countdown of a killed card has run out. -/
def isDue (d : Doomed) : Bool :=
  d.reason = .killed && d.remaining = 0

end Doomed

namespace DestructionQueue

/-- The cards, in order. -/
def cards (q : DestructionQueue) : List LiveId :=
  q.entries.map Doomed.card

/-- The card is on its way out. -/
def contains (q : DestructionQueue) (card : LiveId) : Bool :=
  q.cards.contains card

/-- Puts a card last, unless it is in the queue already. -/
def schedule (q : DestructionQueue) (card : LiveId) (remaining : UInt32)
    (reason : DestructionReason) : DestructionQueue :=
  if q.contains card then q else ⟨q.entries ++ [⟨card, remaining, reason⟩]⟩

/-- Takes a card out of the queue. -/
def cancel (q : DestructionQueue) (card : LiveId) : DestructionQueue :=
  ⟨q.entries.filter (·.card ≠ card)⟩

/-- Counts one turn end down; the killed cards that are due, and the queue without them. -/
def countDown (q : DestructionQueue) : List LiveId × DestructionQueue :=
  let counted := q.entries.map Doomed.countedDown
  ((counted.filter Doomed.isDue).map Doomed.card, ⟨counted.filter (!·.isDue)⟩)

/-- The cards that die after their effect, and the queue without them. -/
def takeAfterEffect (q : DestructionQueue) : List LiveId × DestructionQueue :=
  ((q.entries.filter (·.reason = .afterEffect)).map Doomed.card,
    ⟨q.entries.filter (·.reason ≠ .afterEffect)⟩)

end DestructionQueue

end CardArena
