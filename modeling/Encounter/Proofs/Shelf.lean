import Encounter.Trigger.Shelf
import Mathlib.Data.List.Nodup

/-!
# The shelf, slot by slot

Every question about a shelf is answered by looking at one slot: `get?_eq`, `contains_eq` and
`isOut_iff` reduce the views to `slots[id]?`, and each operation has one lemma that says what it
does to a slot. `mem_ids` does so for the list of all numbers.
-/

set_option autoImplicit false

namespace Encounter.Shelf

variable {κ : Type} {s : Shelf κ} {id i : TriggerId} {t : Trigger κ}

/-! ## Views -/

theorem get?_eq (s : Shelf κ) (id : TriggerId) : s.get? id = s.slots[id]?.join := rfl

theorem contains_eq (s : Shelf κ) (id : TriggerId) : s.contains id = s.slots[id]?.isSome := by
  simp [contains]

theorem isOut_iff : s.isOut id = true ↔ s.slots[id]? = some none := by
  unfold isOut
  split <;> simp_all

theorem get?_eq_some : s.get? id = some t ↔ s.slots[id]? = some (some t) := by
  rw [get?_eq, Option.join_eq_some_iff]

theorem contains_of_get? (h : s.get? id = some t) : s.contains id = true := by
  rw [contains_eq, get?_eq_some.1 h]; rfl

theorem contains_of_isOut (h : s.isOut id = true) : s.contains id = true := by
  rw [contains_eq, isOut_iff.1 h]; rfl

theorem not_isOut_of_get? (h : s.get? id = some t) : s.isOut id = false := by
  rw [Bool.eq_false_iff, ne_eq, isOut_iff, get?_eq_some.1 h]; simp

/-- The trigger of a slot is there or out. -/
theorem get?_or_isOut (h : s.contains id = true) :
    (∃ t, s.get? id = some t) ∨ s.isOut id = true := by
  rw [contains_eq] at h
  obtain ⟨slot, hs⟩ := Option.isSome_iff_exists.1 h
  cases slot with
  | none => exact .inr (isOut_iff.2 hs)
  | some t => exact .inl ⟨t, get?_eq_some.2 hs⟩

theorem mem_ids : id ∈ s.ids ↔ s.contains id = true := by
  rw [ids, contains, Std.ExtTreeMap.mem_keys, Std.ExtTreeMap.contains_iff_mem]

/-! ## Operations -/

theorem slots_new : (new : Shelf κ).slots[id]? = none := by
  simp [new, empty]

theorem slots_insert : (s.insert t).2.slots[id]? =
    if (⟨s.nextId⟩ : TriggerId) = id then some (some t) else s.slots[id]? := by
  simp only [insert, Std.ExtTreeMap.getElem?_insert, Std.LawfulEqCmp.compare_eq_iff_eq]

theorem get?_insert : (s.insert t).2.get? ⟨s.nextId⟩ = some t := by
  rw [get?_eq_some, slots_insert, if_pos rfl]

theorem slots_remove : (s.remove i).2.slots[id]? = if i = id then none else s.slots[id]? := by
  simp only [remove, Std.ExtTreeMap.getElem?_erase, Std.LawfulEqCmp.compare_eq_iff_eq]

theorem slots_modify (f : Trigger κ → Trigger κ) :
    (s.modify i f).slots[id]? = if i = id then s.slots[id]?.map (·.map f) else s.slots[id]? := by
  simp only [modify, Std.ExtTreeMap.getElem?_modify, Std.LawfulEqCmp.compare_eq_iff_eq]
  split
  · rename_i h; rw [h]
  · rfl

theorem slots_checkOut (h : s.get? i = some t) :
    (s.checkOut i).2.slots[id]? = if i = id then some none else s.slots[id]? := by
  simp only [checkOut, h, Std.ExtTreeMap.getElem?_insert, Std.LawfulEqCmp.compare_eq_iff_eq]

theorem get?_checkOut (h : s.get? i = some t) : (s.checkOut i).2.get? i = none := by
  rw [get?_eq, slots_checkOut h, if_pos rfl]; rfl

theorem slots_checkIn : (s.checkIn i t).slots[id]? =
    if i = id ∧ s.contains i = true then some (some t) else s.slots[id]? := by
  unfold checkIn
  split
  · rename_i h
    simp only [Std.ExtTreeMap.getElem?_insert, Std.LawfulEqCmp.compare_eq_iff_eq, h, and_true]
  · rename_i h
    rw [if_neg fun hc => h hc.2]

@[simp] theorem nextId_checkOut : (s.checkOut i).2.nextId = s.nextId := by
  unfold checkOut
  split <;> rfl

@[simp] theorem nextId_checkIn : (s.checkIn i t).nextId = s.nextId := by
  unfold checkIn
  split <;> rfl

theorem contains_remove :
    (s.remove i).2.contains id = true ↔ i ≠ id ∧ s.contains id = true := by
  rw [contains_eq, contains_eq, slots_remove]
  split <;> simp_all

@[simp] theorem contains_modify (f : Trigger κ → Trigger κ) :
    (s.modify i f).contains id = s.contains id := by
  rw [contains_eq, contains_eq, slots_modify]
  split
  · exact Option.isSome_map
  · rfl

theorem contains_checkOut (h : s.get? i = some t) :
    (s.checkOut i).2.contains id = s.contains id := by
  rw [contains_eq, contains_eq, slots_checkOut h]
  split
  · rename_i hi
    subst hi
    rw [get?_eq_some.1 h]; rfl
  · rfl

@[simp] theorem contains_checkIn : (s.checkIn i t).contains id = s.contains id := by
  rw [contains_eq, contains_eq, slots_checkIn]
  split
  · rename_i h
    obtain ⟨rfl, h⟩ := h
    rw [contains_eq] at h
    rw [h]; rfl
  · rfl

end Encounter.Shelf
