import Encounter.Trigger.Basic

/-!
# The shelf of triggers

Every trigger has a slot on the shelf, under a number that is never given twice. A trigger is taken
out of its slot while it fires and put back afterwards; if the slot was removed in the meantime the
trigger is dropped.
-/

set_option autoImplicit false

namespace Encounter

/-- Slots for triggers. The slot of a firing trigger is empty. -/
structure Shelf (κ : Type) where
  slots : Std.ExtTreeMap TriggerId (Option (Trigger κ))
  nextId : UInt32

namespace Shelf

variable {κ : Type}

/-- A shelf without slots that numbers triggers from `first` on. -/
def empty (first : UInt32) : Shelf κ :=
  ⟨∅, first⟩

/-- The shelf of a new encounter; its numbers start at one. -/
def new : Shelf κ :=
  empty 1

instance : Inhabited (Shelf κ) := ⟨new⟩

/-- Makes a slot for a trigger. -/
def insert (s : Shelf κ) (t : Trigger κ) : TriggerId × Shelf κ :=
  let id : TriggerId := ⟨s.nextId⟩
  (id, ⟨s.slots.insert id (some t), s.nextId + 1⟩)

/-- The trigger in a slot; none if it is firing. -/
def get? (s : Shelf κ) (id : TriggerId) : Option (Trigger κ) :=
  s.slots[id]?.join

/-- Changes the trigger in a slot. -/
def modify (s : Shelf κ) (id : TriggerId) (f : Trigger κ → Trigger κ) : Shelf κ :=
  { s with slots := s.slots.modify id (·.map f) }

/-- Is there a slot of this number? -/
def contains (s : Shelf κ) (id : TriggerId) : Bool :=
  s.slots.contains id

/-- The numbers of the slots, ascending. -/
def ids (s : Shelf κ) : List TriggerId :=
  s.slots.keys

/-- Is the trigger of this number firing? -/
def isOut (s : Shelf κ) (id : TriggerId) : Bool :=
  match s.slots[id]? with
  | some none => true
  | _ => false

/-- Takes a trigger out of its slot. -/
def checkOut (s : Shelf κ) (id : TriggerId) : Option (Trigger κ) × Shelf κ :=
  match s.get? id with
  | some t => (some t, { s with slots := s.slots.insert id none })
  | none => (none, s)

/-- Puts a trigger back into its slot, if the slot is still there. -/
def checkIn (s : Shelf κ) (id : TriggerId) (t : Trigger κ) : Shelf κ :=
  if s.contains id then { s with slots := s.slots.insert id (some t) } else s

/-- Removes a slot, and gives the trigger unless it is firing. -/
def remove (s : Shelf κ) (id : TriggerId) : Option (Trigger κ) × Shelf κ :=
  (s.get? id, { s with slots := s.slots.erase id })

/-- The number of slots. -/
def size (s : Shelf κ) : Nat :=
  s.slots.size

end Shelf

end Encounter
