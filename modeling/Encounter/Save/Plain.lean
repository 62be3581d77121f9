import Encounter.Dice.Expression
import Encounter.Json.Reading
import Encounter.Listeners
import Encounter.Payload
import Encounter.Settings
import Encounter.Trigger.SkillCheck

/-!
# Records of plain data

How numbers, kinds, positions, hit points, skill checks, dice, settings and payloads are read from
JSON and written to it. Every field is written, an absent one as `null`.
-/

set_option autoImplicit false

namespace Encounter

open Json (Reader RecordReader readInt readInt32 readInt64 readUInt32 readUInt64 readString readBool
  readAny readMap readVariant)
open Json.RecordReader (required nullable withDefault)

/-! ## Names of kinds -/

/-- Each way to roll under its name. -/
def RollMode.names : List (String × RollMode) :=
  [("normal", .normal), ("advantage", .advantage), ("disadvantage", .disadvantage)]

/-- The name of a way to roll. -/
def RollMode.name : RollMode → String
  | .normal => "normal"
  | .advantage => "advantage"
  | .disadvantage => "disadvantage"

/-- Each kind of grid under its name. -/
def GridKind.names : List (String × GridKind) :=
  [("square", .square), ("hex", .hex)]

/-- The name of a kind of grid. -/
def GridKind.name : GridKind → String
  | .square => "square"
  | .hex => "hex"

/-- Each policy under its name. -/
def DuePolicy.names : List (String × DuePolicy) :=
  [("exact_turn", .exactTurn), ("at_or_before", .atOrBefore)]

/-- The name of a policy. -/
def DuePolicy.name : DuePolicy → String
  | .exactTurn => "exact_turn"
  | .atOrBefore => "at_or_before"

/-- Each tag of a tile under its name. -/
def TileTag.names : List (String × TileTag) :=
  [("blocks_movement", .blocksMovement), ("blocks_vision", .blocksVision),
   ("start_zone", .startZone), ("trap_zone", .trapZone)]

/-- The name of a tag of a tile. -/
def TileTag.name : TileTag → String
  | .blocksMovement => "blocks_movement"
  | .blocksVision => "blocks_vision"
  | .startZone => "start_zone"
  | .trapZone => "trap_zone"

/-- Each terrain under its name. -/
def Terrain.names : List (String × Terrain) :=
  [("grass", .grass), ("water", .water), ("mountain", .mountain), ("floor", .floor),
   ("wall", .wall), ("custom", .custom)]

/-- The name of a terrain. -/
def Terrain.name : Terrain → String
  | .grass => "grass"
  | .water => "water"
  | .mountain => "mountain"
  | .floor => "floor"
  | .wall => "wall"
  | .custom => "custom"

/-! ## Numbers -/

namespace Json

/-- A signed 64-bit integer. -/
def ofInt64 (i : Int64) : Json :=
  .int i.toInt

/-- An unsigned 64-bit integer. -/
def ofUInt64 (n : UInt64) : Json :=
  .int n.toNat

/-- An unsigned 32-bit integer. -/
def ofUInt32 (n : UInt32) : Json :=
  .int n.toNat

/-- A value that may be absent. -/
def ofOption {α : Type} (write : α → Json) : Option α → Json
  | some a => write a
  | none => .null

/-- A map with free keys. -/
def ofMap {α : Type} (write : α → Json) (map : Std.ExtTreeMap String α) : Json :=
  .record (map.toList.map fun (key, a) => (key, write a))

/-- Reads the number of a world. -/
def readWorldId : Reader WorldId :=
  fun value => (readUInt32 value).map .mk

/-- Reads the number of an entity. -/
def readEntityId : Reader EntityId :=
  fun value => (readUInt32 value).map .mk

/-- Reads the number of a trigger. -/
def readTriggerId : Reader TriggerId :=
  fun value => (readUInt32 value).map .mk

/-- Reads the number of a handler. -/
def readHandlerId : Reader HandlerId :=
  fun value => (readUInt32 value).map .mk

/-- Reads skill modifiers. -/
def readStats : Reader Stats :=
  fun value => (readMap readInt64 value).map (.ofList ·)

/-- Reads free values. -/
def readValues : Reader Values :=
  fun value => (readMap readAny value).map (.ofList ·)

end Json

/-- Skill modifiers as a record. -/
def Stats.toJson (stats : Stats) : Json :=
  Json.ofMap Json.ofInt64 stats

/-! ## Subscribers -/

/-- A subscriber as a record of its number under its kind. -/
def Subscriber.toJson : Subscriber → Json
  | .trigger id => .record [("Trigger", .ofUInt32 id.raw)]
  | .handler id => .record [("Handler", .ofUInt32 id.raw)]

/-- Reads a subscriber. -/
def Subscriber.read : Reader Subscriber
  | .record [(kind, value)] =>
    if kind = "Trigger" then (Json.readTriggerId value).map .trigger
    else if kind = "Handler" then (Json.readHandlerId value).map .handler
    else .error (.unknownVariant kind ["Trigger", "Handler"])
  | .string kind =>
    if kind = "Trigger" ∨ kind = "Handler" then
      .error (.wrongType .null "newtype variant")
    else .error (.unknownVariant kind ["Trigger", "Handler"])
  | .record _ => .error (.wrongValue .record "map with a single key")
  | value => .error (.wrongType value.found "string or map")

/-! ## Positions, hit points, checks and dice -/

/-- A position as a record. -/
def Position.toJson (p : Position) : Json :=
  .record [("x", .int p.x.toInt), ("y", .int p.y.toInt)]

/-- Reads a position. -/
def Position.read : Reader Position :=
  RecordReader.read "Position" <|
    .mk <$> required "x" readInt32 <*> required "y" readInt32

/-- Hit points as a record. -/
def Vitals.toJson (v : Vitals) : Json :=
  .record [("current", .ofInt64 v.current), ("max", .ofInt64 v.maximum)]

/-- Reads hit points. -/
def Vitals.read : Reader Vitals :=
  RecordReader.read "Vitals" <|
    .mk <$> required "current" readInt64 <*> required "max" readInt64

/-- A skill check with all its fields as a record. -/
def SkillCheck.toJson (check : SkillCheck) : Json :=
  .record [("auto_fail", .bool check.autoFail), ("auto_pass", .bool check.autoPass),
    ("dc", .ofInt64 check.difficulty), ("skill", .string check.skill)]

/-- Reads a skill check. -/
def SkillCheck.read : Reader SkillCheck :=
  RecordReader.read "SkillCheck" <|
    .mk <$> required "skill" readString <*> required "dc" readInt64
      <*> withDefault "auto_pass" readBool false <*> withDefault "auto_fail" readBool false

/-- A dice expression as a record. -/
def Dice.toJson (dice : Dice) : Json :=
  .record [("count", .ofUInt32 dice.count), ("modifier", .ofInt64 dice.modifier),
    ("sides", .ofUInt32 dice.sides)]

/-- Reads the record of a dice expression; its numbers are taken as they are. -/
def Dice.read : Reader Dice :=
  RecordReader.read "Dice" <|
    .mk <$> required "count" readUInt32 <*> required "sides" readUInt32
      <*> required "modifier" readInt64

/-- The saved state of the dice as a record. -/
def RollerState.toJson (s : RollerState) : Json :=
  .record [("seed", .ofUInt64 s.seed), ("word_pos", .int s.wordPosition)]

/-- Reads the saved state of the dice. -/
def RollerState.read : Reader RollerState :=
  RecordReader.read "RollerState" <|
    .mk <$> required "seed" readUInt64
      <*> required "word_pos" fun value =>
        (readInt 0 0xffffffffffffffffffffffffffffffff "u128" value).map Int.toNat

/-! ## Settings -/

/-- Settings as a record. -/
def Settings.toJson (s : Settings) : Json :=
  .record [("grid_kind", .string s.gridKind.name), ("height", .ofUInt32 s.height),
    ("max_chain_depth", .ofUInt64 s.maxChainDepth), ("rng_seed", .ofUInt64 s.seed),
    ("turn_policy", .string s.turnPolicy.name), ("width", .ofUInt32 s.width)]

/-- Reads settings; each that is left out has its default. -/
def Settings.read : Reader Settings :=
  let default : Settings := {}
  RecordReader.read "Settings" <|
    .mk <$> withDefault "width" readUInt32 default.width
      <*> withDefault "height" readUInt32 default.height
      <*> withDefault "grid_kind" (readVariant GridKind.names) default.gridKind
      <*> withDefault "rng_seed" readUInt64 default.seed
      <*> withDefault "turn_policy" (readVariant DuePolicy.names) default.turnPolicy
      <*> withDefault "max_chain_depth" readUInt64 default.maxChainDepth

/-! ## Payloads -/

/-- A payload as a record. -/
def Payload.toJson (p : Payload) : Json :=
  .record [("character_stats", p.stats.toJson), ("position", .ofOption Position.toJson p.position),
    ("roll_mode", .string p.rollMode.name),
    ("source", .ofOption (fun id => .ofUInt32 id.raw) p.source),
    ("target", .ofOption (fun id => .ofUInt32 id.raw) p.target),
    ("values", .ofMap id p.values), ("world", .ofOption (fun id => .ofUInt32 id.raw) p.world)]

/-- Reads a payload. -/
def Payload.read : Reader Payload :=
  RecordReader.read "Payload" <|
    .mk <$> nullable "world" Json.readWorldId
      <*> nullable "position" Position.read
      <*> nullable "source" Json.readEntityId
      <*> nullable "target" Json.readEntityId
      <*> withDefault "character_stats" Json.readStats ∅
      <*> withDefault "roll_mode" (readVariant RollMode.names) .normal
      <*> withDefault "values" Json.readValues ∅

end Encounter
