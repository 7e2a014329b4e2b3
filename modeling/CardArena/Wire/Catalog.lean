import CardArena.Catalog.Draft
import CardArena.Wire.Effect

/-!
The entries of a catalog in JSON.

A rule is one object: its name, its category, and the fields of that category side by side.
-/

namespace CardArena

namespace ZoneKind

/-- The name of the kind. -/
def name : ZoneKind → String
  | .static => "Static"
  | .dynamic => "Dynamic"

def toJson (kind : ZoneKind) : Json := .str kind.name

def ofJson : Decoder ZoneKind :=
  Json.decodeName .direct [("Static", .static), ("Dynamic", .dynamic)]

end ZoneKind

namespace ZoneLayout

def toJson (z : ZoneLayout) : Json :=
  .obj [("name", .str z.name), ("is_private", .bool z.isPrivate), ("kind", z.kind.toJson)]

def ofJson : Decoder ZoneLayout := fun j => do
  let r ← Record.ofJson ["name", "is_private", "kind"] j
  return {
    name := ← r.get "name" Json.decodeString
    isPrivate := ← r.getD "is_private" false Json.decodeBool
    kind := ← r.get "kind" ZoneKind.ofJson
  }

end ZoneLayout

namespace PlayerAttribute

def toJson (a : PlayerAttribute) : Json :=
  .obj [("name", .str a.name), ("base_value", .ofInt32 a.baseValue)]

def ofJson : Decoder PlayerAttribute := fun j => do
  let r ← Record.ofJson ["name", "base_value"] j
  return ⟨← r.get "name" Json.decodeString, ← r.getD "base_value" 0 Json.decodeInt32⟩

end PlayerAttribute

namespace PlayerAction

/-- The kinds of action, in order. -/
def variants : List String :=
  ["IncreaseAttribute", "DecreaseAttribute", "SetAttribute", "MoveCards"]

def toJson : PlayerAction → Json
  | .increaseAttribute attr => .ofType "IncreaseAttribute" [("attribute", .str attr)]
  | .decreaseAttribute attr => .ofType "DecreaseAttribute" [("attribute", .str attr)]
  | .setAttribute attr => .ofType "SetAttribute" [("attribute", .str attr)]
  | .moveCards origin destination =>
    .ofType "MoveCards" [("from", .str origin), ("to", .str destination)]

/-- The action of a kind, out of its fields. -/
def ofTagged (t : Tagged) : Decoded PlayerAction :=
  match t.variant with
  | "IncreaseAttribute" => do
    let r ← t.record ["attribute"]
    return .increaseAttribute (← r.get "attribute" Json.decodeString)
  | "DecreaseAttribute" => do
    let r ← t.record ["attribute"]
    return .decreaseAttribute (← r.get "attribute" Json.decodeString)
  | "SetAttribute" => do
    let r ← t.record ["attribute"]
    return .setAttribute (← r.get "attribute" Json.decodeString)
  | "MoveCards" => do
    let r ← t.record ["from", "to"]
    return .moveCards (← r.get "from" Json.decodeString) (← r.get "to" Json.decodeString)
  | name => .error (.unknownVariant name)

def ofJson (reading : Reading) : Decoder PlayerAction :=
  Json.decodeType reading variants ofTagged

end PlayerAction

namespace CardAction

/-- The kinds of action, in order. -/
def variants : List String :=
  ["AddCounter", "RemoveCounter", "SetAttribute", "Kill", "Transform"]

def toJson : CardAction → Json
  | .addCounter attr => .ofType "AddCounter" [("attribute", .str attr)]
  | .removeCounter attr => .ofType "RemoveCounter" [("attribute", .str attr)]
  | .setAttribute attr => .ofType "SetAttribute" [("attribute", .str attr)]
  | .kill => .ofType "Kill" []
  | .transform into => .ofType "Transform" [("into", .str into)]

/-- The action of a kind, out of its fields. -/
def ofTagged (t : Tagged) : Decoded CardAction :=
  match t.variant with
  | "AddCounter" => do
    let r ← t.record ["attribute"]
    return .addCounter (← r.get "attribute" Json.decodeString)
  | "RemoveCounter" => do
    let r ← t.record ["attribute"]
    return .removeCounter (← r.get "attribute" Json.decodeString)
  | "SetAttribute" => do
    let r ← t.record ["attribute"]
    return .setAttribute (← r.get "attribute" Json.decodeString)
  | "Kill" => t.unit .kill
  | "Transform" => do
    let r ← t.record ["into"]
    return .transform (← r.get "into" Json.decodeString)
  | name => .error (.unknownVariant name)

def ofJson (reading : Reading) : Decoder CardAction :=
  Json.decodeType reading variants ofTagged

end CardAction

namespace GeneralAction

def toJson : GeneralAction → Json
  | .createToken card => .ofType "CreateToken" [("card", .str card)]

/-- The action of a kind, out of its fields. -/
def ofTagged (t : Tagged) : Decoded GeneralAction :=
  match t.variant with
  | "CreateToken" => do
    let r ← t.record ["card"]
    return .createToken (← r.get "card" Json.decodeString)
  | name => .error (.unknownVariant name)

def ofJson (reading : Reading) : Decoder GeneralAction :=
  Json.decodeType reading ["CreateToken"] ofTagged

end GeneralAction

namespace RuleKind

/-- The fields of a rule behind its name. -/
def fields : RuleKind → List (String × Json)
  | .permanent => [("category", .str "Permanent")]
  | .targetsPlayer action => [("category", .str "TargetsPlayer"), ("action", action.toJson)]
  | .targetsCard action targetCardType =>
    [("category", .str "TargetsCard"), ("action", action.toJson),
      ("target_card_type", .ofOption .str targetCardType)]
  | .general action => [("category", .str "General"), ("action", action.toJson)]

/-- The rule of a category, out of its fields. -/
def ofTagged (t : Tagged) : Decoded RuleKind :=
  match t.variant with
  | "Permanent" => t.unit .permanent
  | "TargetsPlayer" => do
    let r ← t.record ["action"]
    return .targetsPlayer (← r.get "action" (PlayerAction.ofJson .replayed))
  | "TargetsCard" => do
    let r ← t.record ["action", "target_card_type"]
    return .targetsCard (← r.get "action" (CardAction.ofJson .replayed))
      (← r.getD "target_card_type" none (Json.decodeNullable Json.decodeString))
  | "General" => do
    let r ← t.record ["action"]
    return .general (← r.get "action" (GeneralAction.ofJson .replayed))
  | name => .error (.unknownVariant name)

end RuleKind

namespace Rule

def toJson (r : Rule) : Json :=
  .obj (("name", .str r.name) :: r.kind.fields)

/-- A rule is always an object; the fields beside its name are read once its category is known. -/
def ofJson : Decoder Rule
  | .obj fields => do
    let named ← Record.ofJson ["name"] (.obj fields)
    let kind ← Tagged.ofJson .replayed "category"
      ["Permanent", "TargetsPlayer", "TargetsCard", "General"]
      (.obj (fields.filter fun field => field.1 ≠ "name"))
    return ⟨← named.get "name" Json.decodeString, ← RuleKind.ofTagged kind⟩
  | _ => .error (.expected "an object")

end Rule

namespace CardType

def toJson (t : CardType) : Json :=
  .obj
    [("name", .str t.name),
      ("destroy_after_triggering_effect", .bool t.destroyAfterEffect),
      ("attributes", t.attributes.toJson),
      ("effects", .ofList Effect.toJson t.effects)]

def ofJson : Decoder CardType := fun j => do
  let r ← Record.ofJson ["name", "destroy_after_triggering_effect", "attributes", "effects"] j
  return {
    name := ← r.get "name" Json.decodeString
    destroyAfterEffect := ← r.getD "destroy_after_triggering_effect" false Json.decodeBool
    attributes := ← r.getD "attributes" .empty Attributes.ofJson
    effects := ← r.getD "effects" [] (Json.decodeList Effect.ofJson)
  }

end CardType

namespace Cost

def toJson (c : Cost) : Json :=
  .obj [("attribute", .str c.attr), ("amount", .ofInt32 c.amount)]

def ofJson : Decoder Cost := fun j => do
  let r ← Record.ofJson ["attribute", "amount"] j
  return ⟨← r.get "attribute" Json.decodeString, ← r.get "amount" Json.decodeInt32⟩

end Cost

namespace CardDesign

/-- The fields of a design, in order. -/
def fieldNames : List String :=
  ["id", "name", "card_type", "max_copies", "rarity", "subtypes", "effects", "costs"]

def toJson (d : CardDesign) : Json :=
  .obj
    [("id", d.id.toJson),
      ("name", .str d.name),
      ("card_type", .str d.cardType),
      ("max_copies", .ofUInt32 d.maxCopies),
      ("rarity", .str d.rarity),
      ("subtypes", .ofList .str d.subtypes),
      ("effects", .ofList Effect.toJson d.effects),
      ("costs", .ofList Cost.toJson d.costs)]

def ofJson : Decoder CardDesign := fun j => do
  let r ← Record.ofJson fieldNames j
  return {
    id := ← r.get "id" CardId.ofJson
    name := ← r.get "name" Json.decodeString
    cardType := ← r.get "card_type" Json.decodeString
    maxCopies := ← r.getD "max_copies" 3 Json.decodeUInt32
    rarity := ← r.getD "rarity" "" Json.decodeString
    subtypes := ← r.getD "subtypes" [] (Json.decodeList Json.decodeString)
    effects := ← r.getD "effects" [] (Json.decodeList Effect.ofJson)
    costs := ← r.getD "costs" [] (Json.decodeList Cost.ofJson)
  }

end CardDesign

namespace PlayerGroup

/-- The name of the group. -/
def name : PlayerGroup → String
  | .currentPlayer => "CurrentPlayer"
  | .currentOpponents => "CurrentOpponents"
  | .allPlayers => "AllPlayers"

def toJson (group : PlayerGroup) : Json := .str group.name

def ofJson : Decoder PlayerGroup :=
  Json.decodeName .direct
    [("CurrentPlayer", .currentPlayer), ("CurrentOpponents", .currentOpponents),
      ("AllPlayers", .allPlayers)]

end PlayerGroup

namespace GameAction

def toJson : GameAction → Json
  | .increaseAttribute attr value =>
    .ofType "IncreaseAttribute" [("attribute", .str attr), ("value", .ofInt32 value)]
  | .decreaseAttribute attr value =>
    .ofType "DecreaseAttribute" [("attribute", .str attr), ("value", .ofInt32 value)]
  | .setAttribute attr value =>
    .ofType "SetAttribute" [("attribute", .str attr), ("value", .ofInt32 value)]
  | .moveCards origin destination count =>
    .ofType "MoveCards"
      [("from", .str origin), ("to", .str destination), ("count", .ofUInt32 count)]
  | .shuffleZone zone => .ofType "ShuffleZone" [("zone", .str zone)]

/-- The action of a kind, out of its fields. -/
def ofTagged (t : Tagged) : Decoded GameAction :=
  match t.variant with
  | "IncreaseAttribute" => do
    let r ← t.record ["attribute", "value"]
    return .increaseAttribute (← r.get "attribute" Json.decodeString)
      (← r.get "value" Json.decodeInt32)
  | "DecreaseAttribute" => do
    let r ← t.record ["attribute", "value"]
    return .decreaseAttribute (← r.get "attribute" Json.decodeString)
      (← r.get "value" Json.decodeInt32)
  | "SetAttribute" => do
    let r ← t.record ["attribute", "value"]
    return .setAttribute (← r.get "attribute" Json.decodeString)
      (← r.get "value" Json.decodeInt32)
  | "MoveCards" => do
    let r ← t.record ["from", "to", "count"]
    return .moveCards (← r.get "from" Json.decodeString) (← r.get "to" Json.decodeString)
      (← r.get "count" Json.decodeUInt32)
  | "ShuffleZone" => do
    let r ← t.record ["zone"]
    return .shuffleZone (← r.get "zone" Json.decodeString)
  | name => .error (.unknownVariant name)

def ofJson : Decoder GameAction :=
  Json.decodeType .direct [] ofTagged

end GameAction

namespace ScheduledAction

def toJson (s : ScheduledAction) : Json :=
  .obj [("target", s.target.toJson), ("action", s.action.toJson)]

def ofJson : Decoder ScheduledAction := fun j => do
  let r ← Record.ofJson ["target", "action"] j
  return ⟨← r.get "target" PlayerGroup.ofJson, ← r.get "action" GameAction.ofJson⟩

end ScheduledAction

namespace Draft

/-- The sections of a draft, in order. -/
def fieldNames : List String :=
  ["definitions", "card_types", "cards", "player_attributes", "zones", "game_start_actions",
    "turn_start_actions", "turn_end_actions"]

def toJson (d : Draft) : Json :=
  .obj
    [("definitions", .ofList Rule.toJson d.rules),
      ("card_types", .ofList CardType.toJson d.cardTypes),
      ("cards", .ofList CardDesign.toJson d.cards),
      ("player_attributes", .ofList PlayerAttribute.toJson d.playerAttributes),
      ("zones", .ofList ZoneLayout.toJson d.zones),
      ("game_start_actions", .ofList ScheduledAction.toJson d.gameStartActions),
      ("turn_start_actions", .ofList ScheduledAction.toJson d.turnStartActions),
      ("turn_end_actions", .ofList ScheduledAction.toJson d.turnEndActions)]

def ofJson : Decoder Draft := fun j => do
  let r ← Record.ofJson fieldNames j
  return {
    rules := ← r.getD "definitions" [] (Json.decodeList Rule.ofJson)
    cardTypes := ← r.getD "card_types" [] (Json.decodeList CardType.ofJson)
    cards := ← r.getD "cards" [] (Json.decodeList CardDesign.ofJson)
    playerAttributes :=
      ← r.getD "player_attributes" [] (Json.decodeList PlayerAttribute.ofJson)
    zones := ← r.getD "zones" [] (Json.decodeList ZoneLayout.ofJson)
    gameStartActions :=
      ← r.getD "game_start_actions" [] (Json.decodeList ScheduledAction.ofJson)
    turnStartActions :=
      ← r.getD "turn_start_actions" [] (Json.decodeList ScheduledAction.ofJson)
    turnEndActions :=
      ← r.getD "turn_end_actions" [] (Json.decodeList ScheduledAction.ofJson)
  }

end Draft

end CardArena
