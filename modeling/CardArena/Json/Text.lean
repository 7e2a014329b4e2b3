import CardArena.Json.Number
import CardArena.Json.Quoted

/-!
JSON text: `Json.ofText?` reads a whole document, `Json.toText` writes one.

The grammar is the strict one: no mark at the front, no comma at the end of a list, no text after
the value.  An array or object that stands inside 127 others is read but unusable.
-/

namespace CardArena.Json

/-- The four blanks. -/
def isBlank (c : Char) : Bool :=
  c = ' ' || c = '\n' || c = '\t' || c = '\r'

/-- The text from its first character that is no blank. -/
def skipBlanks (text : List Char) : List Char :=
  text.dropWhile isBlank

/-- The text after a word that has to come next. -/
def skipWord : List Char → List Char → Option (List Char)
  | [], text => some text
  | w :: word, c :: text => if w = c then skipWord word text else none
  | _ :: _, [] => none

/-- How many arrays and objects a usable value may stand in. -/
def depthLimit : Nat := 127

/-- A quoted text whose opening quote has been read; `none` inside if it stands for no text. -/
def readString (text : List Char) : Option (Option String × List Char) := do
  let (pieces, rest) ← Quoted.scan [] text
  return ((Quoted.join [] pieces).map String.ofList, rest)

/-- A number, by its first character. -/
def readNumber (text : List Char) : Option (Json × List Char) := do
  let (numeral, rest) ← readNumeral text
  return (numeral.toJson, rest)

/-- An array or object, unless it is nested too deep. -/
def nested (room : Nat) (value : Json) : Json :=
  if room = 0 then .unusable else value

/-- Adds a field in front of those read so far; a name that stands for no text spoils them all. -/
def addField (name : Option String) (value : Json) (done : Option (List (String × Json))) :
    Option (List (String × Json)) := do
  return (← name, value) :: (← done)

/-- The object of the fields read, which come reversed. -/
def ofFields : Option (List (String × Json)) → Json
  | none => .unusable
  | some done => .obj done.reverse

mutual

/-- The value at the front of the text.  `room` is how many more containers may be opened. -/
def readValue (fuel room : Nat) (text : List Char) : Option (Json × List Char) :=
  match fuel with
  | 0 => none
  | fuel + 1 =>
    match skipBlanks text with
    | '"' :: rest => do
      let (value, rest) ← readString rest
      return (value.elim .unusable .str, rest)
    | '[' :: rest =>
      match skipBlanks rest with
      | ']' :: rest => some (nested room (.arr []), rest)
      | rest => do
        let (items, rest) ← readItems fuel (room - 1) [] rest
        return (nested room (.arr items), rest)
    | '{' :: rest =>
      match skipBlanks rest with
      | '}' :: rest => some (nested room (.obj []), rest)
      | rest => do
        let (value, rest) ← readFields fuel (room - 1) (some []) rest
        return (nested room value, rest)
    | 'n' :: rest => (skipWord ['u', 'l', 'l'] rest).map (.null, ·)
    | 't' :: rest => (skipWord ['r', 'u', 'e'] rest).map (.bool true, ·)
    | 'f' :: rest => (skipWord ['a', 'l', 's', 'e'] rest).map (.bool false, ·)
    | rest => readNumber rest

/-- The items up to the closing bracket, at least one. -/
def readItems (fuel room : Nat) (done : List Json) (text : List Char) :
    Option (List Json × List Char) :=
  match fuel with
  | 0 => none
  | fuel + 1 => do
    let (item, rest) ← readValue fuel room text
    match skipBlanks rest with
    | ',' :: rest => readItems fuel room (item :: done) rest
    | ']' :: rest => some ((item :: done).reverse, rest)
    | _ => none

/-- The fields up to the closing brace, at least one. -/
def readFields (fuel room : Nat) (done : Option (List (String × Json))) (text : List Char) :
    Option (Json × List Char) :=
  match fuel with
  | 0 => none
  | fuel + 1 =>
    match skipBlanks text with
    | '"' :: rest => do
      let (name, rest) ← readString rest
      match skipBlanks rest with
      | ':' :: rest =>
        let (value, rest) ← readValue fuel room rest
        match skipBlanks rest with
        | ',' :: rest => readFields fuel room (addField name value done) rest
        | '}' :: rest => some (ofFields (addField name value done), rest)
        | _ => none
      | _ => none
    | _ => none

end

/-- The value of a whole document; `none` if the text does not follow the grammar.  Every call of a
reader hands on a text that is shorter, or the same text to the reader of one item, so twice the
length is fuel enough. -/
def ofText? (text : String) : Option Json := do
  let chars := text.toList
  let (value, rest) ← readValue (2 * chars.length + 2) depthLimit chars
  if (skipBlanks rest).isEmpty then some value else none

mutual

/-- A value as text without blanks, in front of the text that follows it. -/
def write (out : String) : Json → String
  | .null => out ++ "null"
  | .bool true => out ++ "true"
  | .bool false => out ++ "false"
  | .int n => out ++ toString n
  | .real digits => out ++ digits
  | .str s => out ++ Quoted.quote s
  | .arr [] => out ++ "[]"
  | .arr (item :: rest) => writeItems (write (out.push '[') item) rest
  | .obj [] => out ++ "\x7b\x7d"
  | .obj ((name, value) :: rest) =>
    writeFields (write (((out.push '\x7b') ++ Quoted.quote name).push ':') value) rest
  | .unusable => out ++ "null"

/-- The items after the first, and the closing bracket. -/
def writeItems (out : String) : List Json → String
  | [] => out.push ']'
  | item :: rest => writeItems (write (out.push ',') item) rest

/-- The fields after the first, and the closing brace. -/
def writeFields (out : String) : List (String × Json) → String
  | [] => out.push '\x7d'
  | (name, value) :: rest =>
    writeFields (write (((out.push ',') ++ Quoted.quote name).push ':') value) rest

end

/-- A value as text without blanks. -/
def toText (value : Json) : String :=
  write "" value

end CardArena.Json
