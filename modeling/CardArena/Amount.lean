/-!
Arithmetic on attribute values: a sum or difference that leaves the 32-bit range stops at its bound.
-/

namespace CardArena

/-- The value of an attribute, or a change to it. -/
abbrev Amount := Int32

namespace Amount

/-- The amount nearest to an integer. -/
def nearest (n : Int) : Amount :=
  Int32.ofInt (max Int32.minValue.toInt (min Int32.maxValue.toInt n))

/-- The sum, kept within range. -/
def plus (a b : Amount) : Amount :=
  nearest (a.toInt + b.toInt)

/-- The difference, kept within range. -/
def less (a b : Amount) : Amount :=
  nearest (a.toInt - b.toInt)

/-- As a number of cards: nothing for a negative amount. -/
def toCount (a : Amount) : Nat :=
  a.toInt.toNat

end Amount

/-- A count that stops at the last 32-bit number. -/
def nextCount (n : UInt32) : UInt32 :=
  if n.toNat + 1 < UInt32.size then n + 1 else n

end CardArena
