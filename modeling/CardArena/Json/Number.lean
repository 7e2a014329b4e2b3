import CardArena.Json.Basic

/-!
Numbers in JSON text: the grammar (no leading zero, digits on both sides of a point, an exponent
with digits) and what a number stands for.  Digits alone are an integer if they fit the 64-bit
ranges; every other number is kept by its digits unless it is out of range.

The range is that of a double, reached in steps: a number is a significand of 64 bits times a power
of ten (`Numeral.scaled`), both are rounded to doubles, and so is their product
(`Numeral.overflows`).  Next to the largest double, 1.7976931348623157e308, this differs from
rounding the number once: 179769313486231585e291 is in range, though no double is as large, and
1.797693134862315807e308 is out of range, though the largest double is the nearest.
-/

namespace CardArena.Json

/-- The parts of a number as written. -/
structure Numeral where
  negative : Bool
  whole : List Char
  /-- The digits after the point; `none` without a point. -/
  fraction : Option (List Char)
  /-- The sign and the digits of the exponent; `none` without one. -/
  exponent : Option (Bool × List Char)

/-- The digits at the front, and what follows them. -/
def takeDigits (text : List Char) : List Char × List Char :=
  (text.takeWhile Char.isDigit, text.dropWhile Char.isDigit)

/-- A number with one more decimal digit behind it. -/
def joinDigit (n : Nat) (digit : Char) : Nat :=
  10 * n + (digit.toNat - '0'.toNat)

/-- The number that decimal digits stand for. -/
def digitsValue (digits : List Char) : Nat :=
  digits.foldl joinDigit 0

/-- Joins digits to a significand for as long as it fits 64 bits.  The digits from the first that
does not fit are left over. -/
def joinFitting (significand : Nat) : List Char → Nat × List Char
  | [] => (significand, [])
  | digit :: digits =>
    let joined := joinDigit significand digit
    if joined < UInt64.size then joinFitting joined digits else (significand, digit :: digits)

/-- The double nearest to a number, without a bound on its size: 53 binary digits are kept, and
of two doubles as near as each other the even one counts. -/
def nearestDouble (n : Nat) : Nat :=
  let unit := Nat.pow 2 (n.log2 - 52)
  let units := n / unit
  let twiceRest := 2 * (n % unit)
  if twiceRest < unit || (twiceRest = unit && units % 2 = 0) then units * unit
  else (units + 1) * unit

/-- A whole part: a single zero, or digits that do not start with zero. -/
def readWhole (text : List Char) : Option (List Char × List Char) :=
  match takeDigits text with
  | ([], _) => none
  | (['0'], rest) => some (['0'], rest)
  | ('0' :: _, _) => none
  | (digits, rest) => some (digits, rest)

/-- The digits after a point, if a point comes next. -/
def readFraction : List Char → Option (Option (List Char) × List Char)
  | '.' :: text =>
    match takeDigits text with
    | ([], _) => none
    | (digits, rest) => some (some digits, rest)
  | text => some (none, text)

/-- The digits of an exponent whose sign has been read. -/
def readExponentDigits (negative : Bool) (text : List Char) :
    Option (Option (Bool × List Char) × List Char) :=
  match takeDigits text with
  | ([], _) => none
  | (digits, rest) => some (some (negative, digits), rest)

/-- The exponent, if one comes next. -/
def readExponent : List Char → Option (Option (Bool × List Char) × List Char)
  | c :: text =>
    if c = 'e' || c = 'E' then
      match text with
      | '-' :: rest => readExponentDigits true rest
      | '+' :: rest => readExponentDigits false rest
      | rest => readExponentDigits false rest
    else
      some (none, c :: text)
  | [] => some (none, [])

/-- A number without its sign. -/
def readUnsigned (negative : Bool) (text : List Char) : Option (Numeral × List Char) := do
  let (whole, rest) ← readWhole text
  let (fraction, rest) ← readFraction rest
  let (exponent, rest) ← readExponent rest
  return (⟨negative, whole, fraction, exponent⟩, rest)

/-- The number at the front of the text, and what follows it. -/
def readNumeral : List Char → Option (Numeral × List Char)
  | '-' :: text => readUnsigned true text
  | text => readUnsigned false text

namespace Numeral

/-- The number as it was written. -/
def toString (n : Numeral) : String :=
  let sign := if n.negative then ['-'] else []
  let fraction := match n.fraction with
    | none => []
    | some digits => '.' :: digits
  let exponent := match n.exponent with
    | none => []
    | some (true, digits) => 'e' :: '-' :: digits
    | some (false, digits) => 'e' :: digits
  String.ofList (sign ++ n.whole ++ fraction ++ exponent)

/-- The exponent as written; zero without one. -/
def writtenExponent (n : Numeral) : Int :=
  match n.exponent with
  | none => 0
  | some (true, digits) => -(digitsValue digits : Int)
  | some (false, digits) => digitsValue digits

/-- The number, without its sign, as a significand and the power of ten it is multiplied by.
Digits that do not fit the significand are dropped: in the whole part each still counts as a
place, after the point it does not. -/
def scaled (n : Numeral) : Nat × Int :=
  let fraction := n.fraction.getD []
  let (significand, droppedPlaces) := joinFitting 0 n.whole
  let (significand, unread) := joinFitting significand fraction
  let joinedPlaces := fraction.length - unread.length
  (significand, n.writtenExponent + droppedPlaces.length - joinedPlaces)

/-- The number is out of range: its significand times its power of ten rounds past every double.
The powers from 309 on are themselves out of range, so a huge exponent is never multiplied out; a
negative power only makes the significand smaller. -/
def overflows (n : Numeral) : Bool :=
  let (significand, power) := n.scaled
  if significand = 0 || power < 0 then
    false
  else if power > 308 then
    true
  else
    let product := nearestDouble significand * nearestDouble (Nat.pow 10 power.toNat)
    Nat.pow 2 1024 ≤ nearestDouble product

/-- The number is written as an integer, which leaves out minus zero. -/
def integer? (n : Numeral) : Option Int :=
  match n.fraction, n.exponent with
  | none, none =>
    let size := digitsValue n.whole
    if n.negative then
      if size = 0 || size > UInt64.size / 2 then none else some (-(size : Int))
    else
      if size < UInt64.size then some size else none
  | _, _ => none

/-- What the number stands for. -/
def toJson (n : Numeral) : Json :=
  match n.integer? with
  | some value => .int value
  | none => if n.overflows then .unusable else .real n.toString

end Numeral

end CardArena.Json
