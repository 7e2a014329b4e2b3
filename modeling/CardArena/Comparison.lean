import CardArena.Amount

/-!
Comparisons of an attribute value with a threshold.
-/

namespace CardArena

/-- How a value is compared with a threshold. -/
inductive Comparison where
  | lessThan
  | lessThanOrEqual
  | equal
  | greaterThanOrEqual
  | greaterThan
deriving DecidableEq, Repr, Inhabited

namespace Comparison

/-- Every comparison, in the order in which a write to a card announces them. -/
def all : List Comparison :=
  [lessThan, lessThanOrEqual, equal, greaterThanOrEqual, greaterThan]

/-- The comparison holds between a value and a threshold. -/
def holds (value threshold : Amount) : Comparison → Bool
  | lessThan => value < threshold
  | lessThanOrEqual => value ≤ threshold
  | equal => value = threshold
  | greaterThanOrEqual => threshold ≤ value
  | greaterThan => threshold < value

/-- The sign of the comparison. -/
def symbol : Comparison → String
  | lessThan => "<"
  | lessThanOrEqual => "<="
  | equal => "=="
  | greaterThanOrEqual => ">="
  | greaterThan => ">"

end Comparison

end CardArena
