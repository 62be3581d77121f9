import Encounter.Json.Basic
import Encounter.Number.Shortest
import Encounter.Number.Saturation
import Encounter.Text.Quoted

/-!
# Reading typed data from JSON values

A `Reader` takes a value apart or says what is wrong with it. A record of known fields is read by a
`RecordReader`, either from a JSON record, in any order and with unknown keys ignored, or from a
JSON list that holds the fields in the order of their declaration. `Fault.message` words the
faults.
-/

set_option autoImplicit false

namespace Encounter.Json

/-- What a reading came upon. -/
inductive Found where
  | null
  | bool (value : Bool)
  | int (value : Int)
  | float (value : Binary64)
  | string (value : String)
  | list
  | record
  deriving DecidableEq, Repr

/-- What a value looks like to a reading that wanted something else. -/
def found : Json → Found
  | .null => .null
  | .bool b => .bool b
  | .int i => .int i
  | .float x => .float x
  | .string s => .string s
  | .list _ => .list
  | .record _ => .record

/-- Why a value cannot be read. -/
inductive Fault where
  | missingField (field : String)
  | wrongType (found : Found) (wanted : String)
  | wrongValue (found : Found) (wanted : String)
  | unknownVariant (name : String) (known : List String)
  | tooShort (length : Nat) (wanted : String)
  | tooLong (length : Nat)
  deriving DecidableEq, Repr

/-- The words for what was found. -/
def Found.describe : Found → String
  | .null => "null"
  | .bool true => "boolean `true`"
  | .bool false => "boolean `false`"
  | .int i => "integer `" ++ toString i ++ "`"
  | .float x => "floating point `" ++ x.text ++ "`"
  | .string s => "string " ++ Text.quote s
  | .list => "sequence"
  | .record => "map"

/-- The words for a choice of names. -/
def describeChoice : List String → String
  | [a] => "`" ++ a ++ "`"
  | [a, b] => "`" ++ a ++ "` or `" ++ b ++ "`"
  | names => "one of " ++ ", ".intercalate (names.map fun n => "`" ++ n ++ "`")

/-- The words for a fault. -/
def Fault.message : Fault → String
  | .missingField field => "missing field `" ++ field ++ "`"
  | .wrongType found wanted => "invalid type: " ++ found.describe ++ ", expected " ++ wanted
  | .wrongValue found wanted => "invalid value: " ++ found.describe ++ ", expected " ++ wanted
  | .unknownVariant name known =>
    "unknown variant `" ++ name ++ "`, expected " ++ describeChoice known
  | .tooShort length wanted => "invalid length " ++ toString length ++ ", expected " ++ wanted
  | .tooLong length => "invalid length " ++ toString length ++ ", expected fewer elements in array"

/-- Reads a value of type `α`, or says what is wrong. -/
abbrev Reader (α : Type) := Json → Except Fault α

/-! ## Plain values -/

/-- Reads a whole number from `low` to `high`. -/
def readInt (low high : Int) (wanted : String) : Reader Int
  | .int i => if low ≤ i ∧ i ≤ high then .ok i else .error (.wrongValue (.int i) wanted)
  | value => .error (.wrongType value.found wanted)

/-- Reads a signed 64-bit integer. -/
def readInt64 : Reader Int64 :=
  fun value => (readInt (-0x8000000000000000) 0x7fffffffffffffff "i64" value).map Int64.ofInt

/-- Reads a signed 32-bit integer. -/
def readInt32 : Reader Int32 :=
  fun value => (readInt (-0x80000000) 0x7fffffff "i32" value).map Int32.ofInt

/-- Reads an unsigned 64-bit integer. -/
def readUInt64 : Reader UInt64 :=
  fun value => (readInt 0 0xffffffffffffffff "u64" value).map fun i => UInt64.ofNat i.toNat

/-- Reads an unsigned 32-bit integer. -/
def readUInt32 : Reader UInt32 :=
  fun value => (readInt 0 0xffffffff "u32" value).map fun i => UInt32.ofNat i.toNat

/-- Reads a text. -/
def readString : Reader String
  | .string s => .ok s
  | value => .error (.wrongType value.found "a string")

/-- Reads a truth value. -/
def readBool : Reader Bool
  | .bool b => .ok b
  | value => .error (.wrongType value.found "a boolean")

/-- Accepts any value. -/
def readAny : Reader Json :=
  .ok

/-- Reads `null` as absent. -/
def readOption {α : Type} (read : Reader α) : Reader (Option α)
  | .null => .ok none
  | value => (read value).map some

/-- Reads the items of a list, up to the first fault. -/
def readItems {α : Type} (read : Reader α) : List Json → Except Fault (List α)
  | [] => .ok []
  | item :: rest => do
    let a ← read item
    let as ← readItems read rest
    pure (a :: as)

/-- Reads a list of any length. -/
def readList {α : Type} (read : Reader α) : Reader (List α)
  | .list items => readItems read items
  | value => .error (.wrongType value.found "a sequence")

/-- Reads the values of the entries in key order, up to the first fault. -/
def readEntries {α : Type} (read : Reader α) :
    List (String × Json) → Except Fault (List (String × α))
  | [] => .ok []
  | (key, item) :: rest => do
    let a ← read item
    let as ← readEntries read rest
    pure ((key, a) :: as)

/-- Reads a record with free keys, as entries in key order. -/
def readMap {α : Type} (read : Reader α) : Reader (List (String × α))
  | .record entries => readEntries read entries
  | value => .error (.wrongType value.found "a map")

/-- The value that a name stands for. -/
def readName {α : Type} (variants : List (String × α)) (name : String) : Except Fault α :=
  match variants.lookup name with
  | some a => .ok a
  | none => .error (.unknownVariant name (variants.map (·.1)))

/-- Reads one of several names, given as a text or as the only key of a record over `null`. -/
def readVariant {α : Type} (variants : List (String × α)) : Reader α
  | .string name => readName variants name
  | .record [(name, value)] => do
    let a ← readName variants name
    match value with
    | .null => pure a
    | value => .error (.wrongType value.found "unit")
  | .record _ => .error (.wrongValue .record "map with a single key")
  | value => .error (.wrongType value.found "string or map")

/-! ## Records of known fields -/

/-- Where a field may be left out. -/
inductive Omission where
  /-- The field is required. -/
  | never
  /-- A record may lack the field, a list may not. -/
  | inRecord
  /-- A record may lack the field, and a list may end before it. -/
  | always
  deriving DecidableEq

/-- A field of a record: its name, where it may be left out, and the check of its value. -/
structure Field where
  name : String
  omission : Omission
  check : Json → Except Fault Unit

/-- How a record of known fields is read: the fields in order of declaration, and the result built
from the value of each name. -/
structure RecordReader (α : Type) where
  fields : List Field
  build : (String → Option Json) → Except Fault α

namespace RecordReader

variable {α β : Type}

/-- A field that must be there. -/
def required (name : String) (read : Reader α) : RecordReader α where
  fields := [⟨name, .never, fun value => (read value).map fun _ => ()⟩]
  build get := match get name with
    | some value => read value
    | none => .error (.missingField name)

/-- A field that a record may leave out, and then is absent. -/
def nullable (name : String) (read : Reader α) : RecordReader (Option α) where
  fields := [⟨name, .inRecord, fun value => (readOption read value).map fun _ => ()⟩]
  build get := match get name with
    | some value => readOption read value
    | none => .ok none

/-- A field that may be left out, and then has the given value. -/
def withDefault (name : String) (read : Reader α) (default : α) : RecordReader α where
  fields := [⟨name, .always, fun value => (read value).map fun _ => ()⟩]
  build get := match get name with
    | some value => read value
    | none => .ok default

instance : Functor RecordReader where
  map f r := ⟨r.fields, fun get => (r.build get).map f⟩

instance : Seq RecordReader where
  seq f r := ⟨f.fields ++ (r ()).fields, fun get => do
    let g ← f.build get
    let a ← (r ()).build get
    pure (g a)⟩

/-- Checks the entries that are fields, in key order. -/
def checkEntries (fields : List Field) : List (String × Json) → Except Fault Unit
  | [] => .ok ()
  | (key, value) :: rest => do
    match fields.find? (·.name == key) with
    | some field => field.check value
    | none => pure ()
    checkEntries fields rest

/-- Checks that no required field is missing, in order of declaration. -/
def checkPresence (entries : List (String × Json)) : List Field → Except Fault Unit
  | [] => .ok ()
  | field :: rest =>
    if field.omission = .never ∧ (lookup field.name entries).isNone then
      .error (.missingField field.name)
    else checkPresence entries rest

/-- Checks the items of a list against the fields, in order of declaration. -/
def checkItems (wanted : String) : Nat → List Field → List Json → Except Fault Unit
  | _, [], _ => .ok ()
  | i, field :: fields, item :: items => do
    field.check item
    checkItems wanted (i + 1) fields items
  | i, field :: fields, [] =>
    if field.omission = .always then checkItems wanted (i + 1) fields []
    else .error (.tooShort i wanted)

/-- The item of a list in the place of the field with the given name. -/
def itemOf (fields : List Field) (items : List Json) (name : String) : Option Json :=
  match fields, items with
  | field :: fields, item :: items =>
    if field.name = name then some item else itemOf fields items name
  | _, _ => none

/-- Reads the record called `name`, from a JSON record or list. -/
def read (name : String) (reader : RecordReader α) : Reader α
  | .record entries => do
    checkEntries reader.fields entries
    checkPresence entries reader.fields
    reader.build fun field => lookup field entries
  | .list items => do
    let count := reader.fields.length
    let elements := if count = 1 then " element" else " elements"
    checkItems ("struct " ++ name ++ " with " ++ toString count ++ elements) 0 reader.fields items
    if count < items.length then .error (.tooLong items.length)
    else reader.build (itemOf reader.fields items)
  | value => .error (.wrongType value.found ("struct " ++ name))

end RecordReader

end Encounter.Json
