import CardArena.Json.Text

/-!
Reading domain values out of JSON.

A record is read from an object or, by position, from an array; a field that is not known is
skipped.  A tagged value is read from an object one of whose fields names the variant, or from an
array that starts with that name.

What follows a tag can only be read once the tag is known, so all of it is read twice: it may hold
nothing unusable, and the second reading is laxer than a direct one in two places.  `Reading` says
which of the two is under way.
-/

namespace CardArena

/-- Why a JSON value is not the expected one. -/
inductive DecodeError where
  /-- The text is not JSON. -/
  | syntaxError
  /-- The value has another shape than this. -/
  | expected (what : String)
  | missingField (name : String)
  | repeatedField (name : String)
  | unknownVariant (name : String)
deriving DecidableEq, Repr, Inhabited

namespace DecodeError

/-- The error in words. -/
def message : DecodeError → String
  | .syntaxError => "invalid JSON"
  | .expected what => "expected " ++ what
  | .missingField name => "missing field " ++ name
  | .repeatedField name => "duplicate field " ++ name
  | .unknownVariant name => "unknown variant " ++ name

end DecodeError

/-- The outcome of reading one value. -/
abbrev Decoded (α : Type) := Except DecodeError α

/-- A reader of one kind of value. -/
abbrev Decoder (α : Type) := Json → Decoded α

/-- How a value is read: straight from its document, or for the second time, after a tag. -/
inductive Reading where
  | direct
  | replayed
deriving DecidableEq, Repr

namespace Json

def decodeBool : Decoder Bool
  | .bool b => .ok b
  | _ => .error (.expected "a boolean")

def decodeString : Decoder String
  | .str s => .ok s
  | _ => .error (.expected "a string")

/-- An integer between two bounds, both included. -/
def decodeIntIn (low high : Int) : Decoder Int
  | .int n => if low ≤ n ∧ n ≤ high then .ok n else .error (.expected "an integer in range")
  | _ => .error (.expected "an integer")

def decodeInt32 : Decoder Int32 := fun j =>
  (decodeIntIn Int32.minValue.toInt Int32.maxValue.toInt j).map Int32.ofInt

def decodeUInt8 : Decoder UInt8 := fun j =>
  (decodeIntIn 0 (UInt8.size - 1) j).map fun n => UInt8.ofNat n.toNat

def decodeUInt32 : Decoder UInt32 := fun j =>
  (decodeIntIn 0 (UInt32.size - 1) j).map fun n => UInt32.ofNat n.toNat

def decodeUInt64 : Decoder UInt64 := fun j =>
  (decodeIntIn 0 (UInt64.size - 1) j).map fun n => UInt64.ofNat n.toNat

def ofInt32 (n : Int32) : Json := .int n.toInt
def ofUInt8 (n : UInt8) : Json := .int n.toNat
def ofUInt32 (n : UInt32) : Json := .int n.toNat
def ofUInt64 (n : UInt64) : Json := .int n.toNat

def decodeList (decode : Decoder α) : Decoder (List α)
  | .arr items => items.mapM decode
  | _ => .error (.expected "an array")

/-- Null is read as absence. -/
def decodeNullable (decode : Decoder α) : Decoder (Option α)
  | .null => .ok none
  | j => (decode j).map some

/-- Null, or an empty object on a second reading. -/
def isVoid : Reading → Json → Bool
  | _, .null => true
  | .replayed, .obj [] => true
  | _, _ => false

/-- One of the named values of a table: its name, or an object with that one name and nothing
behind it. -/
def decodeName (reading : Reading) (table : List (String × α)) : Decoder α := fun j =>
  let find name := match table.lookup name with
    | some a => .ok a
    | none => .error (.unknownVariant name)
  match j with
  | .str name => find name
  | .obj [(name, behind)] =>
    if isVoid reading behind then find name else .error (.expected "nothing after a name")
  | _ => .error (.expected "a name")

end Json

/-- The fields of a record that were given. -/
structure Record where
  fields : List (String × Json)
  /-- The fields were given by position. -/
  positional : Bool

namespace Record

/-- The first name that occurs twice among fields. -/
def repeated? : List (String × Json) → Option String
  | [] => none
  | (name, _) :: rest =>
    if (rest.lookup name).isSome then some name else repeated? rest

/-- Reads the fields of a record that has these names, in this order. -/
def ofJson (names : List String) : Decoder Record
  | .obj fields =>
    let known := fields.filter fun field => names.contains field.1
    match repeated? known with
    | some name => .error (.repeatedField name)
    | none => .ok ⟨known, false⟩
  | .arr items =>
    if items.length ≤ names.length then .ok ⟨names.zip items, true⟩
    else .error (.expected "fewer items")
  | _ => .error (.expected "a record")

/-- A field that has to be there. -/
def get (r : Record) (name : String) (decode : Decoder α) : Decoded α :=
  match r.fields.lookup name with
  | some j => decode j
  | none => .error (.missingField name)

/-- A field that may be missing and then has a default. -/
def getD (r : Record) (name : String) (default : α) (decode : Decoder α) : Decoded α :=
  match r.fields.lookup name with
  | some j => decode j
  | none => .ok default

/-- A field that may be null or, if fields are named, missing. -/
def get? (r : Record) (name : String) (decode : Decoder α) : Decoded (Option α) :=
  match r.fields.lookup name with
  | some j => Json.decodeNullable decode j
  | none => if r.positional then .error (.missingField name) else .ok none

end Record

/-- The name of a variant and what else was given. -/
structure Tagged where
  variant : String
  body : Json

namespace Tagged

/-- The name in a tag.  On a second reading a tag may also be the position of a variant. -/
def variant? (reading : Reading) (variants : List String) : Decoder String
  | .str name => .ok name
  | .int n =>
    match reading, n with
    | .replayed, .ofNat i =>
      match variants[i]? with
      | some name => .ok name
      | none => .error (.expected "the position of a variant")
    | _, _ => .error (.expected "the name of a variant")
  | _ => .error (.expected "the name of a variant")

/-- Splits the tag from the rest of the fields, or of the items. -/
def split (reading : Reading) (tag : String) (variants : List String) : Decoder Tagged
  | .obj fields => do
    match fields.filter fun field => field.1 = tag with
    | [] => .error (.missingField tag)
    | [(_, j)] =>
      return ⟨← variant? reading variants j, .obj (fields.filter fun field => field.1 ≠ tag)⟩
    | _ => .error (.repeatedField tag)
  | .arr (j :: items) => do
    return ⟨← variant? reading variants j, .arr items⟩
  | _ => .error (.expected "a tagged value")

/-- A tagged value, all of which has to be usable. -/
def ofJson (reading : Reading) (tag : String) (variants : List String) : Decoder Tagged := fun j =>
  if j.isUsable then split reading tag variants j else .error (.expected "a usable value")

/-- A variant without fields; in an array nothing may follow its name. -/
def unit (t : Tagged) (value : α) : Decoded α :=
  match t.body with
  | .arr (_ :: _) => .error (.expected "nothing after a name")
  | _ => .ok value

/-- The fields of a variant. -/
def record (t : Tagged) (names : List String) : Decoded Record :=
  Record.ofJson names t.body

end Tagged

/-- A tagged value whose tag is kept in the field `type`. -/
def Json.decodeType (reading : Reading) (variants : List String)
    (decode : Tagged → Decoded α) : Decoder α := fun j => do
  decode (← Tagged.ofJson reading "type" variants j)

/-- The fields of a tagged value, tag first. -/
def Json.ofType (variant : String) (fields : List (String × Json)) : Json :=
  .obj (("type", .str variant) :: fields)

end CardArena
