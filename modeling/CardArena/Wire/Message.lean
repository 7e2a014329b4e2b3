import CardArena.Inbox
import CardArena.Wire.Identifier

/-!
Snapshots, requests and messages in JSON, and the lines that carry them.
-/

namespace CardArena

namespace LiveCardView

def toJson (v : LiveCardView) : Json :=
  .obj
    [("id", v.id.toJson), ("card", v.card.toJson), ("owner", v.owner.toJson),
      ("alive", .bool v.alive), ("turns_in_play", .ofUInt32 v.turnsInPlay),
      ("attributes", v.attributes.toJson)]

def ofJson : Decoder LiveCardView := fun j => do
  let r ← Record.ofJson ["id", "card", "owner", "alive", "turns_in_play", "attributes"] j
  return {
    id := ← r.get "id" LiveId.ofJson
    card := ← r.get "card" CardId.ofJson
    owner := ← r.get "owner" PlayerId.ofJson
    alive := ← r.get "alive" Json.decodeBool
    turnsInPlay := ← r.get "turns_in_play" Json.decodeUInt32
    attributes := ← r.get "attributes" Attributes.ofJson
  }

end LiveCardView

namespace ZoneView

def toJson (v : ZoneView) : Json :=
  .obj
    [("name", .str v.name), ("count", .ofUInt64 v.count),
      ("cards", .ofOption (.ofList CardId.toJson) v.cards),
      ("live_cards", .ofList LiveCardView.toJson v.liveCards)]

def ofJson : Decoder ZoneView := fun j => do
  let r ← Record.ofJson ["name", "count", "cards", "live_cards"] j
  return {
    name := ← r.get "name" Json.decodeString
    count := ← r.get "count" Json.decodeUInt64
    cards := ← r.get? "cards" (Json.decodeList CardId.ofJson)
    liveCards := ← r.get "live_cards" (Json.decodeList LiveCardView.ofJson)
  }

end ZoneView

namespace PlayerView

def toJson (v : PlayerView) : Json :=
  .obj
    [("id", v.id.toJson), ("name", .str v.name), ("is_connected", .bool v.isConnected),
      ("attributes", v.attributes.toJson), ("zones", .ofList ZoneView.toJson v.zones)]

def ofJson : Decoder PlayerView := fun j => do
  let r ← Record.ofJson ["id", "name", "is_connected", "attributes", "zones"] j
  return {
    id := ← r.get "id" PlayerId.ofJson
    name := ← r.get "name" Json.decodeString
    isConnected := ← r.get "is_connected" Json.decodeBool
    attributes := ← r.get "attributes" Attributes.ofJson
    zones := ← r.get "zones" (Json.decodeList ZoneView.ofJson)
  }

end PlayerView

namespace Snapshot

def toJson (s : Snapshot) : Json :=
  .obj
    [("turn_number", .ofUInt32 s.turnNumber),
      ("active_player", .ofOption PlayerId.toJson s.activePlayer),
      ("players", .ofList PlayerView.toJson s.players)]

def ofJson : Decoder Snapshot := fun j => do
  let r ← Record.ofJson ["turn_number", "active_player", "players"] j
  return {
    turnNumber := ← r.get "turn_number" Json.decodeUInt32
    activePlayer := ← r.get? "active_player" PlayerId.ofJson
    players := ← r.get "players" (Json.decodeList PlayerView.ofJson)
  }

end Snapshot

namespace TargetKind

/-- The name of the kind. -/
def name : TargetKind → String
  | .player => "Player"
  | .card => "Card"

def toJson (kind : TargetKind) : Json := .str kind.name

def ofJson (reading : Reading) : Decoder TargetKind :=
  Json.decodeName reading [("Player", .player), ("Card", .card)]

end TargetKind

namespace TargetChoice

def toJson : TargetChoice → Json
  | .player id => .obj [("Player", id.toJson)]
  | .card id => .obj [("Card", id.toJson)]

def ofJson : Decoder TargetChoice
  | .obj [("Player", j)] => (PlayerId.ofJson j).map .player
  | .obj [("Card", j)] => (LiveId.ofJson j).map .card
  | _ => .error (.expected "a choice")

end TargetChoice

namespace Intent

def toJson : Intent → Json
  | .register name deck =>
    .ofType "Register" [("name", .str name), ("deck", .ofList CardId.toJson deck)]
  | .playCard card => .ofType "PlayCard" [("card", card.toJson)]
  | .stopTurn => .ofType "StopTurn" []
  | .moveCards origin destination count =>
    .ofType "MoveCards"
      [("from", .str origin), ("to", .str destination), ("count", .ofUInt32 count)]
  | .selectTarget choice => .ofType "SelectTarget" [("choice", choice.toJson)]
  | .discardCards cards => .ofType "DiscardCards" [("cards", .ofList CardId.toJson cards)]

/-- The request of a kind, out of its fields. -/
def ofTagged (t : Tagged) : Decoded Intent :=
  match t.variant with
  | "Register" => do
    let r ← t.record ["name", "deck"]
    return .register (← r.get "name" Json.decodeString)
      (← r.get "deck" (Json.decodeList CardId.ofJson))
  | "PlayCard" => do
    let r ← t.record ["card"]
    return .playCard (← r.get "card" CardId.ofJson)
  | "StopTurn" => t.unit .stopTurn
  | "MoveCards" => do
    let r ← t.record ["from", "to", "count"]
    return .moveCards (← r.get "from" Json.decodeString) (← r.get "to" Json.decodeString)
      (← r.get "count" Json.decodeUInt32)
  | "SelectTarget" => do
    let r ← t.record ["choice"]
    return .selectTarget (← r.get "choice" TargetChoice.ofJson)
  | "DiscardCards" => do
    let r ← t.record ["cards"]
    return .discardCards (← r.get "cards" (Json.decodeList CardId.ofJson))
  | name => .error (.unknownVariant name)

def ofJson : Decoder Intent :=
  Json.decodeType .direct [] ofTagged

end Intent

namespace Message

def toJson : Message → Json
  | .playerRegistered player name handle =>
    .ofType "PlayerRegistered"
      [("player", player.toJson), ("name", .str name), ("handle", handle.toJson)]
  | .gameStarted snapshot => .ofType "GameStarted" [("snapshot", snapshot.toJson)]
  | .turnStarted player turnNumber snapshot =>
    .ofType "TurnStarted"
      [("player", player.toJson), ("turn_number", .ofUInt32 turnNumber),
        ("snapshot", snapshot.toJson)]
  | .turnEnded player turnNumber =>
    .ofType "TurnEnded" [("player", player.toJson), ("turn_number", .ofUInt32 turnNumber)]
  | .stateUpdated snapshot => .ofType "StateUpdated" [("snapshot", snapshot.toJson)]
  | .selectTarget kind effect source =>
    .ofType "SelectTarget"
      [("kind", kind.toJson), ("effect", .str effect), ("source", source.toJson)]
  | .selectDiscard count => .ofType "SelectDiscard" [("count", .ofUInt64 count)]
  | .cardSpawned card design owner zone =>
    .ofType "CardSpawned"
      [("card", card.toJson), ("design", design.toJson), ("owner", owner.toJson),
        ("zone", .str zone)]
  | .cardKilled card => .ofType "CardKilled" [("card", card.toJson)]
  | .cardDestroyed card => .ofType "CardDestroyed" [("card", card.toJson)]
  | .cardTransformed old new design =>
    .ofType "CardTransformed"
      [("old", old.toJson), ("new", new.toJson), ("design", design.toJson)]
  | .gameEnded winner => .ofType "GameEnded" [("winner", .ofOption PlayerId.toJson winner)]

/-- The message of a kind, out of its fields. -/
def ofTagged (t : Tagged) : Decoded Message :=
  match t.variant with
  | "PlayerRegistered" => do
    let r ← t.record ["player", "name", "handle"]
    return .playerRegistered (← r.get "player" PlayerId.ofJson)
      (← r.get "name" Json.decodeString) (← r.get "handle" NetHandle.ofJson)
  | "GameStarted" => do
    let r ← t.record ["snapshot"]
    return .gameStarted (← r.get "snapshot" Snapshot.ofJson)
  | "TurnStarted" => do
    let r ← t.record ["player", "turn_number", "snapshot"]
    return .turnStarted (← r.get "player" PlayerId.ofJson)
      (← r.get "turn_number" Json.decodeUInt32) (← r.get "snapshot" Snapshot.ofJson)
  | "TurnEnded" => do
    let r ← t.record ["player", "turn_number"]
    return .turnEnded (← r.get "player" PlayerId.ofJson)
      (← r.get "turn_number" Json.decodeUInt32)
  | "StateUpdated" => do
    let r ← t.record ["snapshot"]
    return .stateUpdated (← r.get "snapshot" Snapshot.ofJson)
  | "SelectTarget" => do
    let r ← t.record ["kind", "effect", "source"]
    return .selectTarget (← r.get "kind" (TargetKind.ofJson .replayed))
      (← r.get "effect" Json.decodeString) (← r.get "source" LiveId.ofJson)
  | "SelectDiscard" => do
    let r ← t.record ["count"]
    return .selectDiscard (← r.get "count" Json.decodeUInt64)
  | "CardSpawned" => do
    let r ← t.record ["card", "design", "owner", "zone"]
    return .cardSpawned (← r.get "card" LiveId.ofJson) (← r.get "design" CardId.ofJson)
      (← r.get "owner" PlayerId.ofJson) (← r.get "zone" Json.decodeString)
  | "CardKilled" => do
    let r ← t.record ["card"]
    return .cardKilled (← r.get "card" LiveId.ofJson)
  | "CardDestroyed" => do
    let r ← t.record ["card"]
    return .cardDestroyed (← r.get "card" LiveId.ofJson)
  | "CardTransformed" => do
    let r ← t.record ["old", "new", "design"]
    return .cardTransformed (← r.get "old" LiveId.ofJson) (← r.get "new" LiveId.ofJson)
      (← r.get "design" CardId.ofJson)
  | "GameEnded" => do
    let r ← t.record ["winner"]
    return .gameEnded (← r.get? "winner" PlayerId.ofJson)
  | name => .error (.unknownVariant name)

def ofJson : Decoder Message :=
  Json.decodeType .direct [] ofTagged

end Message

namespace Inbound

/-- A message that comes in: a request, or without one the end of a connection. -/
def ofJson : Decoder Inbound := fun j => do
  let r ← Record.ofJson ["connection", "intent"] j
  let connection ← r.get "connection" ConnectionId.ofJson
  match ← r.getD "intent" none (Json.decodeNullable Intent.ofJson) with
  | some request => return .intent connection request
  | none => return .disconnected connection

/-- The message of a line of input; none if the line cannot be read. -/
def ofLine? (line : String) : Option Inbound := do
  match ofJson (← Json.ofText? line) with
  | .ok message => some message
  | .error _ => none

end Inbound

/-- A line of output: a message and the connection it goes to. -/
def Message.toLine (connection : ConnectionId) (message : Message) : String :=
  (Json.obj [("connection", connection.toJson), ("message", message.toJson)]).toText

end CardArena
