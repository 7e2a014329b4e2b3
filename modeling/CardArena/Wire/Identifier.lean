import CardArena.Attributes
import CardArena.Identifier
import CardArena.Json.Decode

/-!
Handles and attributes in JSON: a handle is its number, attributes are an object.
-/

namespace CardArena

namespace PlayerId

def toJson (id : PlayerId) : Json := .ofUInt8 id.index

def ofJson : Decoder PlayerId := fun j => (Json.decodeUInt8 j).map PlayerId.mk

end PlayerId

namespace CardId

def toJson (id : CardId) : Json := .ofUInt32 id.number

def ofJson : Decoder CardId := fun j => (Json.decodeUInt32 j).map CardId.mk

end CardId

namespace LiveId

def toJson (id : LiveId) : Json := .ofUInt64 id.number

def ofJson : Decoder LiveId := fun j => (Json.decodeUInt64 j).map LiveId.mk

end LiveId

namespace ConnectionId

def toJson (id : ConnectionId) : Json := .ofUInt64 id.number

def ofJson : Decoder ConnectionId := fun j => (Json.decodeUInt64 j).map ConnectionId.mk

end ConnectionId

namespace NetHandle

def toJson (handle : NetHandle) : Json := .ofUInt32 handle.number

def ofJson : Decoder NetHandle := fun j => (Json.decodeUInt32 j).map NetHandle.mk

end NetHandle

namespace Attributes

def toJson (a : Attributes) : Json :=
  .obj (a.entries.map fun (name, value) => (name, .ofInt32 value))

/-- Of two amounts under one name the later stands. -/
def ofJson : Decoder Attributes
  | .obj fields => do
    let pairs ← fields.mapM fun (name, j) => return (name, ← Json.decodeInt32 j)
    return .ofList pairs
  | _ => .error (.expected "an object")

end Attributes

end CardArena
