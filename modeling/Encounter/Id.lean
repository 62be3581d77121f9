import Std.Data.ExtTreeMap

/-!
# Identifiers

Worlds, entities, triggers and handlers are known by number. Entities, triggers and handlers are
ordered by it, so that they can be keys of ordered maps.
-/

set_option autoImplicit false

namespace Encounter

/-- The number of a world. -/
structure WorldId where
  raw : UInt32
  deriving DecidableEq, Repr, Inhabited

/-- The number of an entity. -/
structure EntityId where
  raw : UInt32
  deriving DecidableEq, Repr, Inhabited

/-- The number of a trigger. -/
structure TriggerId where
  raw : UInt32
  deriving DecidableEq, Repr, Inhabited

/-- The number of a handler. -/
structure HandlerId where
  raw : UInt32
  deriving DecidableEq, Repr, Inhabited

/-- The text of a world's number. -/
def WorldId.text (id : WorldId) : String :=
  "World(" ++ toString id.raw ++ ")"

/-- The text of an entity's number. -/
def EntityId.text (id : EntityId) : String :=
  "Entity(" ++ toString id.raw ++ ")"

/-- The text of a trigger's number. -/
def TriggerId.text (id : TriggerId) : String :=
  "Trigger(" ++ toString id.raw ++ ")"

/-- The text of a handler's number. -/
def HandlerId.text (id : HandlerId) : String :=
  "Handler(" ++ toString id.raw ++ ")"

/-! ## Order -/

instance : Ord EntityId := ⟨compareOn EntityId.raw⟩
instance : Ord TriggerId := ⟨compareOn TriggerId.raw⟩
instance : Ord HandlerId := ⟨compareOn HandlerId.raw⟩

instance : Std.TransOrd EntityId := inferInstanceAs (Std.TransCmp (compareOn EntityId.raw))
instance : Std.TransOrd TriggerId := inferInstanceAs (Std.TransCmp (compareOn TriggerId.raw))
instance : Std.TransOrd HandlerId := inferInstanceAs (Std.TransCmp (compareOn HandlerId.raw))

instance : Std.LawfulEqOrd EntityId where
  eq_of_compare {a b} h := by
    cases a; cases b; exact congrArg _ (Std.LawfulEqOrd.eq_of_compare h)

instance : Std.LawfulEqOrd TriggerId where
  eq_of_compare {a b} h := by
    cases a; cases b; exact congrArg _ (Std.LawfulEqOrd.eq_of_compare h)

instance : Std.LawfulEqOrd HandlerId where
  eq_of_compare {a b} h := by
    cases a; cases b; exact congrArg _ (Std.LawfulEqOrd.eq_of_compare h)

end Encounter
