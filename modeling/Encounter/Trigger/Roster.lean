import Encounter.Id

/-!
# The roster of live triggers

The roster names the live triggers and where each comes from.
-/

set_option autoImplicit false

namespace Encounter

/-- The live triggers, each with its origin. -/
structure Roster where
  origins : Std.ExtTreeMap TriggerId String
  deriving DecidableEq, Inhabited

namespace Roster

/-- The origin of a trigger that has none. -/
def unknown : String :=
  "unknown"

/-- The roster without triggers. -/
def empty : Roster :=
  ⟨∅⟩

/-- Is the trigger live? -/
def contains (r : Roster) (id : TriggerId) : Bool :=
  r.origins.contains id

/-- Makes a trigger live; one that is live already keeps its origin. -/
def add (r : Roster) (id : TriggerId) (origin : Option String) : Roster :=
  if r.contains id then r else ⟨r.origins.insert id (origin.getD unknown)⟩

/-- Ends the life of a trigger. -/
def remove (r : Roster) (id : TriggerId) : Roster :=
  ⟨r.origins.erase id⟩

/-- Where a trigger comes from. -/
def origin (r : Roster) (id : TriggerId) : String :=
  r.origins[id]?.getD unknown

/-- The live triggers that come from `origin`, by number. -/
def fromOrigin (r : Roster) (origin : String) : List TriggerId :=
  (r.origins.toList.filter (·.2 = origin)).map (·.1)

/-- The live triggers, by number. -/
def toList (r : Roster) : List TriggerId :=
  r.origins.keys

/-- The number of live triggers. -/
def size (r : Roster) : Nat :=
  r.origins.size

end Roster

end Encounter
