import Encounter.Json.Document
import Encounter.Save.Plain

/-!
# Settings from text

Settings come as JSON text, as a file, or as a file that the environment names. Reading the text is
stricter than reading a JSON value: a setting may be given only once. Unknown keys are skipped, and
nothing but the form of what stands under them matters.
-/

set_option autoImplicit false

namespace Encounter

open Json (Document)

/-- Why settings cannot be read. -/
inductive SettingsError where
  /-- The file cannot be read, or is not UTF-8. -/
  | unreadable
  /-- The text is no record of settings. -/
  | illFormed
  deriving DecidableEq, Repr

/-- The variable of the environment that names a file of settings. -/
def settingsVariable : String :=
  "TABLETOP_ENGINE_CONFIG"

namespace Settings

/-- Reads an unsigned number below `limit`. -/
def number? (limit : Nat) : Document → Option Nat
  | .number text =>
    match (Json.numberParts? text).bind Json.NumberParts.toJson? with
    | some (.int i) => if 0 ≤ i ∧ i < limit then some i.toNat else none
    | _ => none
  | _ => none

/-- Reads one of several names, given as a text or as the only key of a record over `null`. -/
def variant? {α : Type} (variants : List (String × α)) : Document → Option α
  | .string (some name) => variants.lookup name
  | .record [(some name, .null)] => variants.lookup name
  | _ => none

/-- Reads the setting of a name; none if the value does not fit. A name that is no setting leaves
everything as it is. -/
def set? (s : Settings) (name : String) (value : Document) : Option Settings :=
  if name = "width" then
    (number? 0x100000000 value).map fun n => { s with width := .ofNat n }
  else if name = "height" then
    (number? 0x100000000 value).map fun n => { s with height := .ofNat n }
  else if name = "grid_kind" then
    (variant? GridKind.names value).map fun kind => { s with gridKind := kind }
  else if name = "rng_seed" then
    (number? 0x10000000000000000 value).map fun n => { s with seed := .ofNat n }
  else if name = "turn_policy" then
    (variant? DuePolicy.names value).map fun policy => { s with turnPolicy := policy }
  else if name = "max_chain_depth" then
    (number? 0x10000000000000000 value).map fun n => { s with maxChainDepth := .ofNat n }
  else some s

/-- The names of the settings, in the order in which a list gives them. -/
def names : List String :=
  ["width", "height", "grid_kind", "rng_seed", "turn_policy", "max_chain_depth"]

/-- Reads the entries of a record, those named in `seen` not again. -/
def setAll? (s : Settings) (seen : List String) :
    List (Option String × Document) → Option Settings
  | [] => some s
  | (none, _) :: _ => none
  | (some name, value) :: rest =>
    if name ∈ seen then none
    else
      let seen := if name ∈ names then name :: seen else seen
      (s.set? name value).bind fun s => setAll? s seen rest

/-- Reads settings from a document: a record, or a list of the first settings in order. -/
def ofDocument? : Document → Option Settings
  | .record entries => setAll? {} [] entries
  | .list items =>
    if items.length ≤ names.length then
      setAll? {} [] ((names.zip items).map fun (name, item) => (some name, item))
    else none
  | _ => none

/-- Reads settings from JSON text. -/
def parse (text : String) : Except SettingsError Settings :=
  match (Document.parse text).bind ofDocument? with
  | some s => .ok s
  | none => .error .illFormed

/-- Reads settings from the contents of a file, if there is one. -/
def ofFile (contents : Option ByteArray) : Except SettingsError Settings :=
  match contents.bind String.fromUTF8? with
  | some text => parse text
  | none => .error .unreadable

/-- Reads settings from the file that the environment names; the default ones if it names none. -/
def ofEnvironment (file : Option (Option ByteArray)) : Except SettingsError Settings :=
  match file with
  | some contents => ofFile contents
  | none => .ok {}

end Settings

end Encounter
