import CardArena.Effect
import CardArena.Wire.Identifier

/-!
Triggers, conditions and effects in JSON.

A trigger, a condition and a magnitude carry their kind in the field `type`.  Ways in and out of a
zone may be written `Enter` and `Leave`; they are always written back as `Increase` and `Decrease`.
-/

namespace CardArena

namespace TurnPhase

def toJson (phase : TurnPhase) : Json := .str phase.name

def ofJson (reading : Reading) : Decoder TurnPhase :=
  Json.decodeName reading [("TurnStart", .turnStart), ("TurnEnd", .turnEnd)]

end TurnPhase

namespace PlayerSource

def toJson (source : PlayerSource) : Json := .str source.name

def ofJson (reading : Reading) : Decoder PlayerSource :=
  Json.decodeName reading
    [("Owner", .owner), ("AnyOpponent", .anyOpponent), ("AnyPlayer", .anyPlayer)]

end PlayerSource

namespace Direction

def toJson (direction : Direction) : Json := .str direction.name

def ofJson (reading : Reading) : Decoder Direction :=
  Json.decodeName reading
    [("Increase", .increase), ("Decrease", .decrease), ("Enter", .enter), ("Leave", .leave)]

end Direction

namespace TurnCountMode

def toJson (mode : TurnCountMode) : Json := .str mode.name

def ofJson (reading : Reading) : Decoder TurnCountMode :=
  Json.decodeName reading [("After", .after), ("Every", .every)]

end TurnCountMode

namespace Comparison

/-- The name of the comparison. -/
def name : Comparison → String
  | lessThan => "LessThan"
  | lessThanOrEqual => "LessThanOrEqual"
  | equal => "Equal"
  | greaterThanOrEqual => "GreaterThanOrEqual"
  | greaterThan => "GreaterThan"

def toJson (op : Comparison) : Json := .str op.name

def ofJson (reading : Reading) : Decoder Comparison :=
  Json.decodeName reading (all.map fun op => (op.name, op))

end Comparison

namespace Trigger

def toJson : Trigger → Json
  | .playerLifecycle phase source =>
    .ofType "PlayerLifecycle" [("phase", phase.toJson), ("source", source.toJson)]
  | .playerAttributeDelta direction attr source =>
    .ofType "PlayerAttributeDelta"
      [("direction", direction.toJson), ("attribute", .str attr), ("source", source.toJson)]
  | .playerPlayedCard cardType source =>
    .ofType "PlayerPlayedCard" [("card_type", .str cardType), ("source", source.toJson)]
  | .cardZoneTransition direction zone =>
    .ofType "CardZoneTransition" [("direction", direction.toJson), ("zone", .str zone)]
  | .cardAttributeDelta direction attr =>
    .ofType "CardAttributeDelta" [("direction", direction.toJson), ("attribute", .str attr)]
  | .cardAttributeCompare op attr threshold =>
    .ofType "CardAttributeCompare"
      [("op", op.toJson), ("attribute", .str attr), ("threshold", .ofInt32 threshold)]
  | .cardAttacked => .ofType "CardAttacked" []
  | .turnCount mode turns => .ofType "TurnCount" [("mode", mode.toJson), ("n", .ofUInt32 turns)]

/-- The trigger of a kind, out of its fields. -/
def ofTagged (t : Tagged) : Decoded Trigger :=
  match t.variant with
  | "PlayerLifecycle" => do
    let r ← t.record ["phase", "source"]
    return .playerLifecycle (← r.get "phase" (TurnPhase.ofJson .replayed))
      (← r.get "source" (PlayerSource.ofJson .replayed))
  | "PlayerAttributeDelta" => do
    let r ← t.record ["direction", "attribute", "source"]
    return .playerAttributeDelta (← r.get "direction" (Direction.ofJson .replayed))
      (← r.get "attribute" Json.decodeString)
      (← r.getD "source" .owner (PlayerSource.ofJson .replayed))
  | "PlayerPlayedCard" => do
    let r ← t.record ["card_type", "source"]
    return .playerPlayedCard (← r.get "card_type" Json.decodeString)
      (← r.getD "source" .owner (PlayerSource.ofJson .replayed))
  | "CardZoneTransition" => do
    let r ← t.record ["direction", "zone"]
    return .cardZoneTransition (← r.get "direction" (Direction.ofJson .replayed))
      (← r.get "zone" Json.decodeString)
  | "CardAttributeDelta" => do
    let r ← t.record ["direction", "attribute"]
    return .cardAttributeDelta (← r.get "direction" (Direction.ofJson .replayed))
      (← r.get "attribute" Json.decodeString)
  | "CardAttributeCompare" => do
    let r ← t.record ["op", "attribute", "threshold"]
    return .cardAttributeCompare (← r.get "op" (Comparison.ofJson .replayed))
      (← r.get "attribute" Json.decodeString) (← r.get "threshold" Json.decodeInt32)
  | "CardAttacked" => t.unit .cardAttacked
  | "TurnCount" => do
    let r ← t.record ["mode", "n"]
    return .turnCount (← r.get "mode" (TurnCountMode.ofJson .replayed))
      (← r.get "n" Json.decodeUInt32)
  | name => .error (.unknownVariant name)

def ofJson : Decoder Trigger :=
  Json.decodeType .direct [] ofTagged

end Trigger

namespace Condition

def toJson : Condition → Json
  | .playerAttributeCompare op attr value =>
    .ofType "PlayerAttributeCompare"
      [("op", op.toJson), ("attribute", .str attr), ("value", .ofInt32 value)]
  | .cardHasPermanentEffect named negate =>
    .ofType "CardHasPermanentEffect" [("named", .str named), ("negate", .bool negate)]
  | .cardHasSubtype named negate =>
    .ofType "CardHasSubtype" [("named", .str named), ("negate", .bool negate)]
  | .cardAttributeCompare op attr value =>
    .ofType "CardAttributeCompare"
      [("op", op.toJson), ("attribute", .str attr), ("value", .ofInt32 value)]

/-- The condition of a kind, out of its fields. -/
def ofTagged (t : Tagged) : Decoded Condition :=
  match t.variant with
  | "PlayerAttributeCompare" => do
    let r ← t.record ["op", "attribute", "value"]
    return .playerAttributeCompare (← r.get "op" (Comparison.ofJson .replayed))
      (← r.get "attribute" Json.decodeString) (← r.get "value" Json.decodeInt32)
  | "CardHasPermanentEffect" => do
    let r ← t.record ["named", "negate"]
    return .cardHasPermanentEffect (← r.get "named" Json.decodeString)
      (← r.getD "negate" false Json.decodeBool)
  | "CardHasSubtype" => do
    let r ← t.record ["named", "negate"]
    return .cardHasSubtype (← r.get "named" Json.decodeString)
      (← r.getD "negate" false Json.decodeBool)
  | "CardAttributeCompare" => do
    let r ← t.record ["op", "attribute", "value"]
    return .cardAttributeCompare (← r.get "op" (Comparison.ofJson .replayed))
      (← r.get "attribute" Json.decodeString) (← r.get "value" Json.decodeInt32)
  | name => .error (.unknownVariant name)

def ofJson : Decoder Condition :=
  Json.decodeType .direct [] ofTagged

end Condition

namespace Magnitude

def toJson : Magnitude → Json
  | .fixed value => .ofType "Fixed" [("value", .ofInt32 value)]
  | .random low high => .ofType "Random" [("min", .ofInt32 low), ("max", .ofInt32 high)]

/-- The magnitude of a kind, out of its fields. -/
def ofTagged (t : Tagged) : Decoded Magnitude :=
  match t.variant with
  | "Fixed" => do
    let r ← t.record ["value"]
    return .fixed (← r.get "value" Json.decodeInt32)
  | "Random" => do
    let r ← t.record ["min", "max"]
    return .random (← r.get "min" Json.decodeInt32) (← r.get "max" Json.decodeInt32)
  | name => .error (.unknownVariant name)

def ofJson : Decoder Magnitude :=
  Json.decodeType .direct [] ofTagged

end Magnitude

namespace PlayerTarget

/-- Every target with its name. -/
def table : List (String × PlayerTarget) :=
  [("CurrentPlayer", .currentPlayer), ("CurrentOpponent", .currentOpponent),
    ("AllPlayers", .allPlayers), ("RandomPlayer", .randomPlayer), ("TargetPlayer", .targetPlayer)]

/-- The name of the target. -/
def name : PlayerTarget → String
  | .currentPlayer => "CurrentPlayer"
  | .currentOpponent => "CurrentOpponent"
  | .allPlayers => "AllPlayers"
  | .randomPlayer => "RandomPlayer"
  | .targetPlayer => "TargetPlayer"

def toJson (target : PlayerTarget) : Json := .str target.name

def ofJson : Decoder PlayerTarget := Json.decodeName .direct table

end PlayerTarget

namespace CardTarget

/-- Every target with its name. -/
def table : List (String × CardTarget) :=
  [("ThisCard", .thisCard), ("AllCards", .allCards),
    ("AllCurrentPlayerCards", .allCurrentPlayerCards),
    ("AllCurrentOpponentCards", .allCurrentOpponentCards), ("RandomCard", .randomCard),
    ("TargetCard", .targetCard), ("CurrentPlayerCard", .currentPlayerCard),
    ("CurrentOpponentCard", .currentOpponentCard)]

/-- The name of the target. -/
def name : CardTarget → String
  | .thisCard => "ThisCard"
  | .allCards => "AllCards"
  | .allCurrentPlayerCards => "AllCurrentPlayerCards"
  | .allCurrentOpponentCards => "AllCurrentOpponentCards"
  | .randomCard => "RandomCard"
  | .targetCard => "TargetCard"
  | .currentPlayerCard => "CurrentPlayerCard"
  | .currentOpponentCard => "CurrentOpponentCard"

def toJson (target : CardTarget) : Json := .str target.name

def ofJson : Decoder CardTarget := Json.decodeName .direct table

end CardTarget

namespace EffectTarget

def toJson : EffectTarget → Json
  | .untargeted => .str "None"
  | .player target => .obj [("Player", target.toJson)]
  | .card target => .obj [("Card", target.toJson)]

def ofJson : Decoder EffectTarget
  | .str "None" => .ok .untargeted
  | .obj [("None", .null)] => .ok .untargeted
  | .obj [("Player", j)] => (PlayerTarget.ofJson j).map .player
  | .obj [("Card", j)] => (CardTarget.ofJson j).map .card
  | _ => .error (.expected "a target")

end EffectTarget

namespace Effect

/-- The fields of an effect, in order. -/
def fieldNames : List String :=
  ["definition", "trigger", "trigger_conditions", "target_conditions", "unavoidable", "target",
    "magnitude"]

def toJson (e : Effect) : Json :=
  .obj
    [("definition", .str e.definition),
      ("trigger", e.trigger.toJson),
      ("trigger_conditions", .ofList Condition.toJson e.triggerConditions),
      ("target_conditions", .ofList Condition.toJson e.targetConditions),
      ("unavoidable", .bool e.unavoidable),
      ("target", e.target.toJson),
      ("magnitude", .ofOption Magnitude.toJson e.magnitude)]

def ofJson : Decoder Effect := fun j => do
  let r ← Record.ofJson fieldNames j
  return {
    definition := ← r.get "definition" Json.decodeString
    trigger := ← r.get "trigger" Trigger.ofJson
    triggerConditions := ← r.getD "trigger_conditions" [] (Json.decodeList Condition.ofJson)
    targetConditions := ← r.getD "target_conditions" [] (Json.decodeList Condition.ofJson)
    unavoidable := ← r.getD "unavoidable" false Json.decodeBool
    target := ← r.getD "target" .untargeted EffectTarget.ofJson
    magnitude := ← r.getD "magnitude" none (Json.decodeNullable Magnitude.ofJson)
  }

end Effect

end CardArena
