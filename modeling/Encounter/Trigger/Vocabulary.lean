import Encounter.Json.Printer
import Encounter.Trigger.Basic
import Encounter.Failure

/-!
# The vocabulary of records

Records name the conditions and reactions of a trigger by tags and functions. A `Catalog` holds the
makers of the tagged ones, a `Functions` table the code of the named ones; both only grow. The tags
of the built-in ones are in every vocabulary.
-/

set_option autoImplicit false

namespace Encounter

/-- The tag of a part that refers to a named function. -/
def functionTag : String :=
  "function"

/-- Makes a part of a trigger from the arguments in its record. -/
abbrev Maker (α : Type) := Json → Except Failure α

/-! ## Catalogs -/

/-- Makers by tag, in the order of registration. -/
structure Catalog (α : Type) where
  kind : PartKind
  makers : List (String × Maker α)

namespace Catalog

variable {α : Type}

/-- A catalog without makers. -/
def empty (kind : PartKind) : Catalog α :=
  ⟨kind, []⟩

/-- The tags, in the order of registration. -/
def tags (c : Catalog α) : List String :=
  c.makers.map (·.1)

/-- Is there a maker of this tag? -/
def contains (c : Catalog α) (tag : String) : Bool :=
  tag ∈ c.tags

/-- Adds a maker. The tag of functions and a tag that is taken are refused. -/
def register (c : Catalog α) (tag : String) (maker : Maker α) : Except Failure (Catalog α) :=
  if tag = functionTag ∨ c.contains tag then .error (.registration (.typeTaken c.kind tag))
  else .ok { c with makers := c.makers ++ [(tag, maker)] }

/-- Makes a part from its tag and arguments. -/
def make (c : Catalog α) (tag : String) (args : Json) : Except Failure α :=
  match c.makers.lookup tag with
  | some maker => maker args
  | none => .error (.unknownType c.kind tag)

end Catalog

/-! ## Built-in parts -/

/-- Reads the arguments of a built-in part. -/
def builtin {α : Type} (tag name : String) (reader : Json.RecordReader α) : Maker α :=
  fun args => match reader.read name args with
    | .ok a => .ok a
    | .error fault => .error (.malformed tag (.fault fault))

open Json Json.RecordReader in
/-- The arguments of a perception check. -/
def perceptionArgs {κ : Type} : Json.RecordReader (Condition κ) :=
  .perception <$> required "dc" readInt64

open Json Json.RecordReader in
/-- The arguments of damage. -/
def damageArgs {κ : Type} : Json.RecordReader (Reaction κ) :=
  .damage <$> required "damage_type" readString <*> required "amount" readInt64

open Json Json.RecordReader in
/-- The arguments of an alert. -/
def alertArgs {κ : Type} : Json.RecordReader (Reaction κ) :=
  .alert <$> required "message" readString

open Json Json.RecordReader in
/-- The arguments of a sound. -/
def soundArgs {κ : Type} : Json.RecordReader (Reaction κ) :=
  .sound <$> required "sound_file" readString

open Json Json.RecordReader in
/-- The arguments of a scheduled event. -/
def scheduleArgs {κ : Type} : Json.RecordReader (Reaction κ) :=
  .schedule <$> required "turns" readUInt64 <*> required "event_type" readString

/-- The catalog of the built-in conditions. Skill checks and functions have records of their own
form. -/
def Catalog.conditions {κ : Type} : Catalog (Condition κ) where
  kind := .condition
  makers := [
    ("AlwaysTrue", fun _ => .ok .always),
    ("PerceptionCheck", builtin "PerceptionCheck" "DcArgs" perceptionArgs)]

/-- The catalog of the built-in reactions. -/
def Catalog.reactions {κ : Type} : Catalog (Reaction κ) where
  kind := .reaction
  makers := [
    ("ApplyDamage", builtin "ApplyDamage" "DamageArgs" damageArgs),
    ("AlertGamemaster", builtin "AlertGamemaster" "MessageArgs" alertArgs),
    ("PlaySound", builtin "PlaySound" "SoundArgs" soundArgs),
    ("ScheduleEvent", builtin "ScheduleEvent" "ScheduleArgs" scheduleArgs)]

/-! ## Functions -/

/-- The code behind the names of functions. -/
structure Functions (κ : Type) where
  conditions : Std.ExtTreeMap String κ
  reactions : Std.ExtTreeMap String κ

namespace Functions

variable {κ : Type}

/-- No names. -/
def empty : Functions κ :=
  ⟨∅, ∅⟩

/-- Names the code of a condition, and gives the condition that runs it. -/
def addCondition (f : Functions κ) (name : String) (code : κ) :
    Except Failure (Condition κ × Functions κ) :=
  if f.conditions.contains name then .error (.registration (.functionTaken .condition name))
  else .ok (.function name code, { f with conditions := f.conditions.insert name code })

/-- Names the code of a reaction, and gives the reaction that runs it. -/
def addReaction (f : Functions κ) (name : String) (code : κ) :
    Except Failure (Reaction κ × Functions κ) :=
  if f.reactions.contains name then .error (.registration (.functionTaken .reaction name))
  else .ok (.function name code, { f with reactions := f.reactions.insert name code })

/-- The condition of a name. -/
def condition? (f : Functions κ) (name : String) : Option (Condition κ) :=
  f.conditions[name]?.map (.function name)

/-- The reaction of a name. -/
def reaction? (f : Functions κ) (name : String) : Option (Reaction κ) :=
  f.reactions[name]?.map (.function name)

end Functions

/-! ## Vocabularies -/

/-- All that records can refer to. -/
structure Vocabulary (κ : Type) where
  conditions : Catalog (Condition κ)
  reactions : Catalog (Reaction κ)
  functions : Functions κ

/-- The vocabulary of the built-in conditions and reactions. -/
def Vocabulary.builtin {κ : Type} : Vocabulary κ :=
  ⟨.conditions, .reactions, .empty⟩

instance {κ : Type} : Inhabited (Vocabulary κ) := ⟨.builtin⟩

end Encounter
