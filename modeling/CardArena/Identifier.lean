/-!
The handles by which players, card designs, cards in play and connections are known.
-/

namespace CardArena

/-- A seat at the table, numbered in the order of registration. -/
structure PlayerId where
  index : UInt8
deriving DecidableEq, Repr, Inhabited

/-- A card design of the catalog.  A card outside play is known by its design alone. -/
structure CardId where
  number : UInt32
deriving DecidableEq, Repr, Inhabited

/-- One card in play. -/
structure LiveId where
  number : UInt64
deriving DecidableEq, Repr, Inhabited

/-- Where a player's messages come from and go to. -/
structure ConnectionId where
  number : UInt64
deriving DecidableEq, Repr, Inhabited

/-- The handle under which clients know a player. -/
structure NetHandle where
  number : UInt32
deriving DecidableEq, Repr, Inhabited

namespace PlayerId

instance : ToString PlayerId where
  toString id := "player#" ++ toString id.index

/-- The handle of a player is the number of the seat. -/
def netHandle (id : PlayerId) : NetHandle :=
  ⟨id.index.toUInt32⟩

end PlayerId

instance : ToString CardId where
  toString id := "card#" ++ toString id.number

instance : ToString LiveId where
  toString id := "live#" ++ toString id.number

end CardArena
