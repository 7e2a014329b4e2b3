import CardArena.Config
import CardArena.Json.Decode

/-!
Settings in JSON.  Every field may be missing and then has its default.
-/

namespace CardArena

namespace Config

/-- The fields of the settings, in order. -/
def fieldNames : List String :=
  ["turn_duration_secs", "max_hand_size", "max_cascade_depth", "destruction_delay_turns",
    "players_per_match", "rng_seed", "deck_zone", "hand_zone", "board_zone", "graveyard_zone",
    "defeat_attribute", "untargetable_effect"]

def fields (c : Config) : List (String × Json) :=
  [("turn_duration_secs", .ofUInt64 c.turnSeconds),
    ("max_hand_size", .ofUInt64 c.maxHandSize),
    ("max_cascade_depth", .ofUInt64 c.maxCascadeDepth),
    ("destruction_delay_turns", .ofUInt32 c.destructionDelay),
    ("players_per_match", .ofUInt64 c.playersPerMatch),
    ("rng_seed", .ofOption .ofUInt64 c.seed),
    ("deck_zone", .str c.deckZone),
    ("hand_zone", .str c.handZone),
    ("board_zone", .str c.boardZone),
    ("graveyard_zone", .ofOption .str c.graveyardZone),
    ("defeat_attribute", .ofOption .str c.defeatAttribute),
    ("untargetable_effect", .ofOption .str c.untargetableEffect)]

def toJson (c : Config) : Json :=
  .obj c.fields

/-- The settings that are used where a field is missing. -/
def default : Config := {}

def ofJson : Decoder Config := fun j => do
  let r ← Record.ofJson fieldNames j
  return {
    turnSeconds := ← r.getD "turn_duration_secs" default.turnSeconds Json.decodeUInt64
    maxHandSize := ← r.getD "max_hand_size" default.maxHandSize Json.decodeUInt64
    maxCascadeDepth := ← r.getD "max_cascade_depth" default.maxCascadeDepth Json.decodeUInt64
    destructionDelay :=
      ← r.getD "destruction_delay_turns" default.destructionDelay Json.decodeUInt32
    playersPerMatch := ← r.getD "players_per_match" default.playersPerMatch Json.decodeUInt64
    seed := ← r.getD "rng_seed" default.seed (Json.decodeNullable Json.decodeUInt64)
    deckZone := ← r.getD "deck_zone" default.deckZone Json.decodeString
    handZone := ← r.getD "hand_zone" default.handZone Json.decodeString
    boardZone := ← r.getD "board_zone" default.boardZone Json.decodeString
    graveyardZone :=
      ← r.getD "graveyard_zone" default.graveyardZone (Json.decodeNullable Json.decodeString)
    defeatAttribute :=
      ← r.getD "defeat_attribute" default.defeatAttribute (Json.decodeNullable Json.decodeString)
    untargetableEffect :=
      ← r.getD "untargetable_effect" default.untargetableEffect
        (Json.decodeNullable Json.decodeString)
  }

end Config

end CardArena
