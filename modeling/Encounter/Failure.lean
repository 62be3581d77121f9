import Encounter.Id
import Encounter.Json.Reading
import Encounter.Position

/-!
# Failures

Why an operation was refused or a callback failed. Misses that the game takes in its stride, such
as damage to someone without hit points, are no failures. `Failure.message` words them.
-/

set_option autoImplicit false

namespace Encounter

/-- The two kinds of parts that a trigger is made of. -/
inductive PartKind where
  | condition
  | reaction
  deriving DecidableEq, Repr

/-- The name of a kind of part. -/
def PartKind.name : PartKind → String
  | .condition => "condition"
  | .reaction => "reaction"

/-- What is wrong with a record that has the right form. -/
inductive Defect where
  /-- The value cannot be read. -/
  | fault (fault : Json.Fault)
  /-- A field that may be absent holds something else than it should. -/
  | wrongField (field wanted found : String)
  deriving DecidableEq, Repr

/-- The words for a defect. -/
def Defect.message : Defect → String
  | .fault f => f.message
  | .wrongField field wanted found =>
    "'" ++ field ++ "' must be " ++ wanted ++ ", got " ++ found

/-- Why a registration was refused. -/
inductive Refusal where
  | typeTaken (kind : PartKind) (tag : String)
  | functionTaken (kind : PartKind) (name : String)
  deriving DecidableEq, Repr

/-- The words for a refusal. -/
def Refusal.message : Refusal → String
  | .typeTaken kind tag => kind.name ++ " type '" ++ tag ++ "' is already registered"
  | .functionTaken kind name => kind.name ++ " function '" ++ name ++ "' is already registered"

/-- Why an operation did not succeed. -/
inductive Failure where
  | unknownType (kind : PartKind) (tag : String)
  | unknownFunction (kind : PartKind) (name : String)
  | malformed (tag : String) (defect : Defect)
  | missingField (record field : String)
  | chainTooDeep (limit : UInt64)
  | invalidPlacement (name : String) (position : Position)
  | duplicateEntity (id : EntityId)
  | unknownEntity (id : EntityId)
  | unknownTrigger (id : TriggerId)
  | registration (refusal : Refusal)
  | callback (message : String)
  deriving DecidableEq, Repr

/-- The words for a failure. -/
def Failure.message : Failure → String
  | .unknownType kind tag => "Unknown " ++ kind.name ++ " type: " ++ tag
  | .unknownFunction kind name => "Unknown " ++ kind.name ++ " function: " ++ name
  | .malformed tag defect => "Malformed " ++ tag ++ " record: " ++ defect.message
  | .missingField record field => "Missing field '" ++ field ++ "' in " ++ record ++ " record"
  | .chainTooDeep limit => "Trigger chain deeper than " ++ toString limit ++ " links"
  | .invalidPlacement name position =>
    "Cannot place " ++ name ++ " at invalid tile " ++ position.text
  | .duplicateEntity id => "Entity " ++ id.text ++ " already exists"
  | .unknownEntity id => "Unknown entity: " ++ id.text
  | .unknownTrigger id => "Unknown trigger: " ++ id.text
  | .registration refusal => "Registration rejected: " ++ refusal.message
  | .callback message => "Callback failed: " ++ message

end Encounter
