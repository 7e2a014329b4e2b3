import CardArena.Identifier

/-!
Where handles of cards in play come from.  The host hands out a row of handles, one for each card
that comes into play, and is told of each card that comes and goes.
-/

namespace CardArena

/-- What the host of the cards is told. -/
inductive SpawnCall where
  | spawn (id : LiveId) (card : CardId) (owner : PlayerId)
  | despawn (id : LiveId)
deriving DecidableEq, Repr, Inhabited

/-- A row of handles and what has been told so far. -/
structure Spawner where
  handle : Nat → LiveId
  issued : Nat := 0
  calls : Array SpawnCall := #[]

namespace Spawner

/-- Handles that start at one number and go on in equal steps. -/
def stepping (start step : UInt64) : Spawner :=
  ⟨fun n => ⟨start + UInt64.ofNat n * step⟩, 0, #[]⟩

/-- The handles 1, 2, 3 and so on. -/
def sequential : Spawner :=
  stepping 1 1

instance : Inhabited Spawner := ⟨sequential⟩

/-- The next handle, for a card that comes into play. -/
def spawn (s : Spawner) (card : CardId) (owner : PlayerId) : LiveId × Spawner :=
  let id := s.handle s.issued
  (id, { s with issued := s.issued + 1, calls := s.calls.push (.spawn id card owner) })

/-- A card leaves play. -/
def despawn (s : Spawner) (id : LiveId) : Spawner :=
  { s with calls := s.calls.push (.despawn id) }

end Spawner

end CardArena
