/-!
JSON values as the codecs of this library see them.

A value keeps what its text said: an object keeps every field in order, repeated names included, so
that a reader may refuse a repeated field or let the last one win, and a number that is no plain
64-bit integer keeps its digits.  Text that follows the grammar may still stand for nothing — a
number beyond every double, a string with half of a surrogate pair, a nesting that is too deep.
Such a part is `unusable`: a reader that skips it does not mind, any other refuses it.
-/

namespace CardArena

/-- A JSON value. -/
inductive Json where
  | null
  | bool (value : Bool)
  /-- An integer written without fraction or exponent, between `-2^63` and `2^64 - 1`. -/
  | int (value : Int)
  /-- Any other number, by its digits. -/
  | real (digits : String)
  | str (value : String)
  | arr (items : List Json)
  | obj (fields : List (String × Json))
  /-- Well-formed text that stands for no value. -/
  | unusable
deriving Inhabited

namespace Json

/-- A list of values as an array. -/
def ofList (encode : α → Json) (xs : List α) : Json :=
  .arr (xs.map encode)

/-- A value that may be absent; absence is written as null. -/
def ofOption (encode : α → Json) : Option α → Json
  | none => .null
  | some a => encode a

/-- A count as a number. -/
def ofNat (n : Nat) : Json :=
  .int n

mutual

/-- No part of the value is unusable. -/
def isUsable : Json → Bool
  | .unusable => false
  | .arr items => areUsable items
  | .obj fields => fieldsUsable fields
  | _ => true

/-- No part of any of the values is unusable. -/
def areUsable : List Json → Bool
  | [] => true
  | item :: rest => item.isUsable && areUsable rest

/-- No part of any of the fields is unusable. -/
def fieldsUsable : List (String × Json) → Bool
  | [] => true
  | (_, value) :: rest => value.isUsable && fieldsUsable rest

end

end Json

end CardArena
