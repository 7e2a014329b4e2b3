/-!
Quoted text in JSON.

Reading is in two steps.  `Quoted.scan` follows the grammar up to the closing quote and keeps each
`\u` escape as a 16-bit unit; `Quoted.join` then puts units together, where half of a surrogate
pair stands for no character.  Writing escapes the quote, the backslash and the control characters
and nothing else.
-/

namespace CardArena.Json.Quoted

/-- One written part of a quoted text. -/
inductive Piece where
  | char (c : Char)
  /-- The unit of a `\u` escape. -/
  | unit (code : Nat)

/-- The value of a hexadecimal digit. -/
def hexValue? (c : Char) : Option Nat :=
  if c.isDigit then
    some (c.toNat - '0'.toNat)
  else if 'a' ≤ c && c ≤ 'f' then
    some (c.toNat - 'a'.toNat + 10)
  else if 'A' ≤ c && c ≤ 'F' then
    some (c.toNat - 'A'.toNat + 10)
  else
    none

/-- The unit that four hexadecimal digits spell. -/
def unit? (a b c d : Char) : Option Nat := do
  return (((← hexValue? a) * 16 + (← hexValue? b)) * 16 + (← hexValue? c)) * 16 + (← hexValue? d)

/-- The character that a backslash and a letter stand for. -/
def escaped? : Char → Option Char
  | '"' => some '"'
  | '\\' => some '\\'
  | '/' => some '/'
  | 'b' => some '\x08'
  | 'f' => some '\x0c'
  | 'n' => some '\n'
  | 'r' => some '\r'
  | 't' => some '\t'
  | _ => none

/-- The pieces up to the closing quote, in front of those already read (which come reversed), and
the text after that quote.  A control character may not stand for itself. -/
def scan (done : List Piece) : List Char → Option (List Piece × List Char)
  | [] => none
  | '"' :: rest => some (done.reverse, rest)
  | '\\' :: 'u' :: a :: b :: c :: d :: rest =>
    match unit? a b c d with
    | some code => scan (.unit code :: done) rest
    | none => none
  | '\\' :: c :: rest =>
    match escaped? c with
    | some e => scan (.char e :: done) rest
    | none => none
  | c :: rest => if c.toNat < 32 then none else scan (.char c :: done) rest

/-- A unit that opens a surrogate pair. -/
def isHigh (code : Nat) : Bool :=
  0xD800 ≤ code && code < 0xDC00

/-- A unit that closes a surrogate pair. -/
def isLow (code : Nat) : Bool :=
  0xDC00 ≤ code && code < 0xE000

/-- The character of a surrogate pair. -/
def pairChar (high low : Nat) : Char :=
  Char.ofNat (0x10000 + (high - 0xD800) * 0x400 + (low - 0xDC00))

/-- The characters that pieces stand for, after those already found (which come reversed); `none`
if half of a pair stands alone. -/
def join (done : List Char) : List Piece → Option (List Char)
  | [] => some done.reverse
  | .char c :: rest => join (c :: done) rest
  | .unit high :: .unit low :: rest =>
    if isHigh high then
      if isLow low then join (pairChar high low :: done) rest else none
    else if isLow high then
      none
    else
      join (Char.ofNat high :: done) (.unit low :: rest)
  | .unit code :: rest =>
    if isHigh code || isLow code then none else join (Char.ofNat code :: done) rest

/-- One hexadecimal digit. -/
def hexDigit (n : Nat) : Char :=
  if n < 10 then Char.ofNat ('0'.toNat + n) else Char.ofNat ('a'.toNat + n - 10)

/-- A character as it is written inside quotes. -/
def escape (c : Char) : List Char :=
  if c = '"' then ['\\', '"']
  else if c = '\\' then ['\\', '\\']
  else if c = '\n' then ['\\', 'n']
  else if c = '\r' then ['\\', 'r']
  else if c = '\t' then ['\\', 't']
  else if c = '\x08' then ['\\', 'b']
  else if c = '\x0c' then ['\\', 'f']
  else if c.toNat < 32 then ['\\', 'u', '0', '0', hexDigit (c.toNat / 16), hexDigit (c.toNat % 16)]
  else [c]

/-- A text between quotes. -/
def quote (s : String) : String :=
  String.ofList ('"' :: (s.toList.flatMap escape ++ ['"']))

end CardArena.Json.Quoted
