import Encounter.Engine.Run
import Encounter.Proofs.Registration

/-!
# What changes do to the shelf

There are three kinds of changes (`Change.treats_apply`): those that store triggers one after the
other under the next numbers (`Shelf.Stores`; no trigger at all for most changes), those that lose
slots (`Shelf.Loses`), and the rewriting of one trigger. `Change.slot_cases` says what that means
for one slot, and `Change.counted_apply` which numbers are given.
-/

set_option autoImplicit false

namespace Encounter

/-! ## Shelves -/

namespace Shelf

variable {κ : Type}

/-- The second shelf is the first one with triggers stored one after the other, under `ids`. -/
inductive Stores : Shelf κ → List TriggerId → Shelf κ → Prop
  | nil {s : Shelf κ} : Stores s [] s
  | cons {s s' : Shelf κ} {ids : List TriggerId} (t : Trigger κ)
      (h : Stores (s.insert t).2 ids s') : Stores s (⟨s.nextId⟩ :: ids) s'

theorem Stores.single (s : Shelf κ) (t : Trigger κ) : Stores s [⟨s.nextId⟩] (s.insert t).2 :=
  .cons t .nil

theorem Stores.append {s s' s'' : Shelf κ} {ids ids' : List TriggerId} (h : Stores s ids s')
    (h' : Stores s' ids' s'') : Stores s (ids ++ ids') s'' := by
  induction h with
  | nil => exact h'
  | cons t h ih => exact .cons t (ih h')

theorem Stores.slots {s s' : Shelf κ} {ids : List TriggerId} (h : Stores s ids s')
    (id : TriggerId) : (id ∈ ids ∧ ∃ t, s'.slots[id]? = some (some t)) ∨
      (id ∉ ids ∧ s'.slots[id]? = s.slots[id]?) := by
  induction h with
  | nil => exact .inr ⟨List.not_mem_nil, rfl⟩
  | @cons s s' ids t h ih =>
    rw [slots_insert] at ih
    rcases ih with ⟨hm, ht⟩ | ⟨hm, hs⟩
    · exact .inl ⟨List.mem_cons_of_mem _ hm, ht⟩
    · split at hs
      · rename_i hid
        exact .inl ⟨hid ▸ List.mem_cons_self, t, hs⟩
      · rename_i hid
        refine .inr ⟨?_, hs⟩
        rw [List.mem_cons, not_or]
        exact ⟨fun he => hid he.symm, hm⟩

/-- Storing goes on with the numbers where it stopped. -/
theorem Stores.counted {s s' : Shelf κ} {ids : List TriggerId} (h : Stores s ids s') {first n : Nat}
    (hn : s.nextId = .ofNat (first + n)) :
    ids.reverse.map TriggerId.raw ++ counted first n = counted first (n + ids.length) ∧
      s'.nextId = .ofNat (first + (n + ids.length)) := by
  induction h generalizing n with
  | nil => exact ⟨rfl, hn⟩
  | @cons s s' ids t h ih =>
    have hnext : (s.insert t).2.nextId = .ofNat (first + (n + 1)) := by
      show s.nextId + 1 = _
      rw [hn, ofNat_add_one, Nat.add_assoc]
    obtain ⟨h1, h2⟩ := ih hnext
    rw [List.reverse_cons, List.map_append, List.append_assoc, List.length_cons,
      Nat.add_comm ids.length, ← Nat.add_assoc]
    refine ⟨?_, h2⟩
    rw [← h1, Encounter.counted, ← hn]
    rfl

/-- The second shelf is the first one without some of its slots. -/
def Loses (s s' : Shelf κ) : Prop :=
  s'.nextId = s.nextId ∧ ∀ id : TriggerId, s'.slots[id]? = s.slots[id]? ∨ s'.slots[id]? = none

theorem Loses.refl (s : Shelf κ) : Loses s s := ⟨rfl, fun _ => .inl rfl⟩

theorem Loses.remove {s s' : Shelf κ} (h : Loses s s') (id : TriggerId) :
    Loses s (s'.remove id).2 := by
  refine ⟨h.1, fun i => ?_⟩
  rw [slots_remove]
  split
  · exact .inr rfl
  · exact h.2 i

/-- Rewriting a trigger that is not there changes no slot. -/
theorem loses_modify {s : Shelf κ} {id : TriggerId} (f : Trigger κ → Trigger κ)
    (h : s.get? id = none) : Loses s (s.modify id f) := by
  refine ⟨rfl, fun i => .inl ?_⟩
  rw [slots_modify]
  split
  · rename_i hi
    subst hi
    rw [get?_eq, Option.join_eq_none_iff] at h
    rcases h with h | h <;> rw [h] <;> rfl
  · rfl

end Shelf

/-! ## Changes -/

namespace Engine

variable {κ : Type} {e e' : Engine κ} {x : EntityId}

theorem attach_shelf {id : TriggerId} (h : e.attach x id = .ok e') : e'.shelf = e.shelf := by
  obtain ⟨-, -, rfl⟩ := attach_eq_ok.1 h
  rw [activate_shelf]

theorem register_stores {t : Trigger κ} {id : TriggerId} (h : e.register x t = .ok (id, e')) :
    e.shelf.Stores [id] e'.shelf := by
  obtain ⟨t', -, rfl, h⟩ := register_eq_ok h
  rw [attach_shelf h, registerGlobal_shelf]
  exact .single e.shelf t'

theorem registerAll_stores {triggers : List (Trigger κ)} {ids : List TriggerId}
    (h : e.registerAll x triggers = .ok (ids, e')) : e.shelf.Stores ids e'.shelf := by
  induction triggers generalizing e ids with
  | nil =>
    cases h
    exact .nil
  | cons t rest ih =>
    obtain ⟨id, e₁, ids', h₁, h₂, rfl⟩ := registerAll_cons_eq_ok h
    exact (register_stores h₁).append (ih h₂)

/-- What registering one trigger under a new number keeps, registering several does. -/
theorem registerAll_keeps {P : Engine κ → Prop} {triggers : List (Trigger κ)}
    {ids : List TriggerId}
    (hP : ∀ (e e' : Engine κ) (t : Trigger κ) (id : TriggerId), P e →
      e.shelf.contains id = false → e.register x t = .ok (id, e') → P e')
    (hr : e.registerAll x triggers = .ok (ids, e')) (h : P e) (hids : ids.Nodup)
    (hnew : ∀ id ∈ ids, e.shelf.contains id = false) : P e' := by
  induction triggers generalizing e ids with
  | nil =>
    cases hr
    exact h
  | cons t rest ih =>
    obtain ⟨id, e₁, ids', h₁, h₂, rfl⟩ := registerAll_cons_eq_ok hr
    rw [List.nodup_cons] at hids
    refine ih h₂ (hP e e₁ t id h (hnew id List.mem_cons_self) h₁) hids.2 fun i hi => ?_
    rw [← Bool.not_eq_true, Shelf.contains_eq]
    intro hin
    rcases (register_stores h₁).slots i with ⟨hm, -⟩ | ⟨-, hs⟩
    · exact hids.1 (List.mem_singleton.1 hm ▸ hi)
    · rw [hs, ← Shelf.contains_eq, hnew i (List.mem_cons_of_mem _ hi)] at hin
      cases hin

theorem removeTriggers_loses (ids : List TriggerId) :
    e.shelf.Loses (e.removeTriggers ids).shelf := by
  refine @removeTriggers_keeps κ (fun e' => e.shelf.Loses e'.shelf) ?_ ids e (.refl _)
  intro e₁ id answer e₂ h₁ h
  obtain ⟨-, -, rfl⟩ := removeTrigger_eq_ok.1 h
  exact h₁.remove id

end Engine

namespace Change

variable {κ α : Type} {e : Engine κ}

open Engine Encounter.Shelf

theorem stored_register {x : EntityId} {t : Trigger κ} {id : TriggerId} {e' : Engine κ}
    (h : e.register x t = .ok (id, e')) : (Change.register x t).stored e = [id] := by
  simp only [stored, h]

theorem stored_addPresets {x : EntityId} {ids : List TriggerId} {e' : Engine κ}
    (h : e.addPresets x = .ok (ids, e')) : (Change.addPresets x).stored e = ids := by
  simp only [stored, h]

theorem stored_load {record : Json} {x : EntityId} {ids : List TriggerId} {e' : Engine κ}
    (h : e.load record = .ok ((x, ids), e')) : (Change.load record).stored e = ids := by
  simp only [stored, h]

/-- The kinds of changes. -/
theorem treats_apply (c : Change κ α) (e : Engine κ) :
    Stores e.shelf (c.stored e) (c.apply e).2.shelf ∨
      (c.stored e = [] ∧ Loses e.shelf (c.apply e).2.shelf) ∨
        (c.stored e = [] ∧ ∃ id f, .rewritten id ∈ c.remarks e ∧
          (c.apply e).2.shelf = e.shelf.modify id f) := by
  cases c with
  | register x t =>
    left
    simp only [stored, apply]
    cases h : e.register x t with
    | error failure => exact .nil
    | ok p => exact register_stores h
  | registerGlobal t =>
    left
    simp only [stored, apply, registerGlobal_shelf]
    exact .single e.shelf t
  | addPresets x =>
    left
    simp only [stored, apply]
    cases h : e.addPresets x with
    | error failure => exact .nil
    | ok p =>
      obtain ⟨_, -, h⟩ := addPresets_eq_ok h
      exact registerAll_stores h
  | load record =>
    left
    simp only [stored, apply]
    cases h : e.load record with
    | error failure => exact .nil
    | ok p =>
      obtain ⟨⟨x, ids⟩, e'⟩ := p
      obtain ⟨name, kind, stats, triggers, -, -, h⟩ := load_eq_ok h
      have hs := registerAll_stores h
      exact hs
  | removeTrigger id =>
    refine .inr (.inl ⟨rfl, ?_⟩)
    refine orRefuse_cases (P := fun e' => Loses e.shelf e'.shelf) (.refl _) fun answer e' h => ?_
    obtain ⟨-, -, rfl⟩ := removeTrigger_eq_ok.1 h
    exact (Loses.refl _).remove id
  | removeEntity x =>
    refine .inr (.inl ⟨rfl, ?_⟩)
    refine orRefuse_cases (P := fun e' => Loses e.shelf e'.shelf) (.refl _) fun removed e' h => ?_
    obtain ⟨world, -, rfl⟩ := removeEntity_eq_ok h
    exact removeTriggers_loses _
  | resetEvents => exact .inr (.inl ⟨rfl, removeTriggers_loses _⟩)
  | editTrigger id f =>
    right
    cases h : e.shelf.get? id with
    | none => exact .inl ⟨rfl, loses_modify f h⟩
    | some t => exact .inr ⟨rfl, id, f, by simp [remarks, h], rfl⟩
  | attach x id =>
    refine .inl (orRefuse_cases (P := fun e' => Stores e.shelf [] e'.shelf) .nil fun _ e' h => ?_)
    obtain ⟨e₁, h, he⟩ := map_eq_ok.1 h
    cases he
    show Stores _ [] _
    rw [attach_shelf h]
    exact .nil
  | dequeue =>
    left
    simp only [apply, Engine.dequeue]
    split <;> exact .nil
  | insert | place | move =>
    refine .inl (onWorldOrRefuse_cases (P := fun e' => Stores e.shelf [] e'.shelf) .nil ?_)
    exact fun _ _ _ => .nil
  | addConditionType | addReactionType | nameCondition | nameReaction =>
    refine .inl (orRefuse_cases (P := fun e' => Stores e.shelf [] e'.shelf) .nil fun _ e' h => ?_)
    obtain ⟨_, -, he⟩ := map_eq_ok.1 h
    cases he
    exact .nil
  | _ => exact .inl .nil

/-- What a change does to one slot. -/
theorem slot_cases (c : Change κ α) (e : Engine κ) (id : TriggerId) :
    (id ∈ c.stored e ∧ ∃ t, (c.apply e).2.shelf.slots[id]? = some (some t)) ∨
      (id ∉ c.stored e ∧
        ((c.apply e).2.shelf.slots[id]? = e.shelf.slots[id]? ∨
          (c.apply e).2.shelf.slots[id]? = none ∨
          (.rewritten id ∈ c.remarks e ∧ ∃ t t', e.shelf.slots[id]? = some (some t) ∧
            (c.apply e).2.shelf.slots[id]? = some (some t')))) := by
  rcases c.treats_apply e with h | ⟨hs, h⟩ | ⟨hs, i, f, hr, h⟩
  · rcases h.slots id with hin | ⟨hout, hid⟩
    · exact .inl hin
    · exact .inr ⟨hout, .inl hid⟩
  · refine .inr ⟨by simp [hs], ?_⟩
    rcases h.2 id with hid | hid
    · exact .inl hid
    · exact .inr (.inl hid)
  · refine .inr ⟨by simp [hs], ?_⟩
    rw [h, slots_modify]
    split
    · rename_i hi
      subst hi
      rcases ht : e.shelf.slots[i]? with _ | _ | t
      · exact .inl rfl
      · exact .inl rfl
      · exact .inr (.inr ⟨hr, t, f t, rfl, rfl⟩)
    · exact .inl rfl

theorem fits (c : Change κ α) (h : c.overflows e = false) :
    e.shelf.nextId.toNat + (c.stored e).length < UInt32.size ∧
      e.listeners.nextHandler.toNat + c.newHandlers < UInt32.size := by
  simpa [overflows] using h

/-- A change that gives no numbers does not count past the last one. -/
theorem overflows_eq_false {c : Change κ α} (hs : c.stored e = []) (hh : c.newHandlers = 0) :
    c.overflows e = false := by
  have h₁ := e.shelf.nextId.toNat_lt
  have h₂ := e.listeners.nextHandler.toNat_lt
  simp only [overflows, hs, hh, List.length_nil, Nat.add_zero, Bool.or_eq_false_iff,
    decide_eq_false_iff_not]
  exact ⟨Nat.not_le.2 h₁, Nat.not_le.2 h₂⟩

/-- The numbers that a change gives are the next ones. -/
theorem counted_apply (c : Change κ α) {first n : Nat} (hn : e.shelf.nextId.toNat = first + n)
    (hfit : c.overflows e = false) :
    (c.stored e).reverse.map TriggerId.raw ++ counted first n =
        counted first (n + (c.stored e).length) ∧
      (c.apply e).2.shelf.nextId.toNat = first + (n + (c.stored e).length) := by
  have hlt := (c.fits hfit).1
  have hof : e.shelf.nextId = .ofNat (first + n) := by rw [← hn, UInt32.ofNat_toNat]
  rcases c.treats_apply e with h | ⟨hs, h⟩ | ⟨hs, i, f, -, h⟩
  · obtain ⟨h₁, h₂⟩ := h.counted hof
    rw [hn, Nat.add_assoc] at hlt
    refine ⟨h₁, ?_⟩
    rw [h₂, UInt32.toNat_ofNat', Nat.mod_eq_of_lt hlt]
  · rw [hs]
    exact ⟨rfl, by rw [h.1]; exact hn⟩
  · rw [hs, h]
    exact ⟨rfl, hn⟩

/-- What a change stores goes under numbers that come next. -/
theorem stored_range (c : Change κ α) (hfit : c.overflows e = false) :
    e.shelf.nextId ≤ (c.apply e).2.shelf.nextId ∧ ∀ i ∈ c.stored e,
      e.shelf.nextId ≤ i.raw ∧ i.raw < (c.apply e).2.shelf.nextId := by
  have hlt := (c.fits hfit).1
  have hstart : e.shelf.nextId.toNat = e.shelf.nextId.toNat + 0 := rfl
  obtain ⟨hids, hnext⟩ := c.counted_apply hstart hfit
  simp only [UInt32.le_iff_toNat_le, UInt32.lt_iff_toNat_lt]
  refine ⟨by omega, fun i hi => ?_⟩
  have hmem : i.raw ∈ counted e.shelf.nextId.toNat (0 + (c.stored e).length) := by
    rw [← hids]
    simpa using Or.inl ⟨i, hi, rfl⟩
  obtain ⟨k, hk, hraw⟩ := mem_counted.1 hmem
  have hof : (UInt32.ofNat (e.shelf.nextId.toNat + k)).toNat = e.shelf.nextId.toNat + k :=
    UInt32.toNat_ofNat_of_lt' (by omega)
  rw [hraw, hof]
  omega

end Change

end Encounter
