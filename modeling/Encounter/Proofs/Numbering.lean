import Encounter.Proofs.Following
import Encounter.Proofs.Storing

/-!
# Numbers are given once

`Session.Numbered`: the numbers of the triggers that were ever stored are the first ones, counted
from one, the shelf goes on with the next, and whatever has a slot or fires has one of them;
likewise for handlers, counted from zero. Every move keeps this (`Session.Numbered.move`). No run
outlives its numbers, so none is given twice: what is stored is fresh (`Session.Numbered.fresh`,
`Session.Numbered.fresh_handler`).
-/

set_option autoImplicit false

namespace Encounter

open Journal

/-! ## Handlers of an engine -/

/-- Both engines have the same handlers and go on with the same number. -/
def Engine.SameHandlers {κ : Type} (e e' : Engine κ) : Prop :=
  e'.listeners.handlers = e.listeners.handlers ∧ e'.listeners.nextHandler = e.listeners.nextHandler

namespace Engine

variable {κ : Type} {e e' : Engine κ} {x : EntityId} {id : TriggerId}

theorem SameHandlers.refl (e : Engine κ) : e.SameHandlers e := ⟨rfl, rfl⟩

theorem SameHandlers.trans {e₁ e₂ e₃ : Engine κ} (h : e₁.SameHandlers e₂)
    (h' : e₂.SameHandlers e₃) : e₁.SameHandlers e₃ :=
  ⟨h'.1.trans h.1, h'.2.trans h.2⟩

theorem SameHandlers.handler? (h : e.SameHandlers e') (handler : HandlerId) :
    e'.listeners.handler? handler = e.listeners.handler? handler := by
  rw [Listeners.handler?, h.1]; rfl

theorem Apart.sameHandlers (h : e.Apart e') : e.SameHandlers e' := ⟨h.handlers, h.nextHandler⟩

end Engine

/-! ## Handlers and changes -/

/-- Does the notice tell of handlers? -/
def Notice.isOfHandler {κ : Type} : Notice κ → Bool
  | .handlerStored _ => true
  | .handlerDropped _ => true
  | .handling _ => true
  | _ => false

namespace Change

variable {κ α : Type}

open Engine

/-- Handlers come and go by two kinds of changes. -/
theorem handlers_apply (c : Change κ α) (e : Engine κ) :
    (e.SameHandlers (c.apply e).2 ∧ ∀ n ∈ c.remarks e, n.isOfHandler = false) ∨
      ((∃ code, (c.apply e).2.listeners = (e.listeners.addHandler code).2) ∧
        c.remarks e = [.handlerStored ⟨e.listeners.nextHandler⟩] ∧ c.newHandlers = 1) ∨
      ∃ handler, (c.apply e).2.listeners = e.listeners.removeHandler handler ∧
        c.remarks e =
          if (e.listeners.handler? handler).isSome then [.handlerDropped handler] else [] := by
  have hnil : ∀ n ∈ ([] : List (Notice κ)), n.isOfHandler = false := fun _ h => by cases h
  have hapart : c.IsApart → e.SameHandlers (c.apply e).2 := fun h => (c.apart h e).sameHandlers
  cases c with
  | addHandler code => exact .inr (.inl ⟨⟨code, rfl⟩, rfl, rfl⟩)
  | removeHandler handler => exact .inr (.inr ⟨handler, rfl, rfl⟩)
  | removeEntity x =>
    refine .inl ⟨orRefuse_cases (P := e.SameHandlers) (.refl e) fun _ e' h => ?_, hnil⟩
    obtain ⟨world, -, rfl⟩ := removeEntity_eq_ok h
    exact (removeTriggers_apart _).sameHandlers.trans ⟨rfl, rfl⟩
  | scheduleRounds => exact .inl ⟨⟨rfl, rfl⟩, by simp [remarks, Notice.isOfHandler]⟩
  | setOrder => exact .inl ⟨⟨rfl, rfl⟩, hnil⟩
  | schedule | enqueue =>
    exact .inl ⟨hapart trivial, by simp [remarks, Notice.isOfHandler]⟩
  | dequeue =>
    refine .inl ⟨hapart trivial, ?_⟩
    simp only [remarks]
    cases e.waiting with
    | nil => exact hnil
    | cons first rest => simp [Notice.isOfHandler]
  | editTrigger id f =>
    refine .inl ⟨hapart trivial, ?_⟩
    simp only [remarks]
    split <;> simp [Notice.isOfHandler]
  | _ => exact .inl ⟨hapart trivial, hnil⟩

end Change

/-! ## Numbers of a session -/

namespace Journal

variable {κ : Type} {ns j : List (Notice κ)}

theorem storedTriggers_of_isAside (hn : ∀ n ∈ ns, n.isAside = true) :
    storedTriggers (ns ++ j) = storedTriggers j := by
  rw [storedTriggers_append, List.append_left_eq_self]
  refine List.eq_nil_iff_forall_not_mem.2 fun id h => ?_
  cases hn _ (mem_storedTriggers.1 h)

theorem storedHandlers_of_isAside (hn : ∀ n ∈ ns, n.isAside = true) :
    storedHandlers (ns ++ j) = storedHandlers j := by
  rw [storedHandlers_append, List.append_left_eq_self]
  refine List.eq_nil_iff_forall_not_mem.2 fun id h => ?_
  cases hn _ (mem_storedHandlers.1 h)

theorem fires_of_isAside (hn : ∀ n ∈ ns, n.isAside = true) : fires (ns ++ j) = fires j := by
  induction ns with
  | nil => rfl
  | cons n ns ih =>
    have h := hn n (by simp)
    rw [← ih fun m hm => hn m (by simp [hm])]
    cases n <;> first | rfl | cases h

/-- Entries that do not tell of fires leave it open whose fires are under way. -/
theorem ids_fires_append (hn : ∀ n ∈ ns, n.isOfFire = false) :
    (fires (ns ++ j)).map Fire.id = (fires j).map Fire.id := by
  rw [fires_append hn, List.map_map]
  rfl

end Journal

/-- The numbers that were given are the first ones, and whatever there is has one of them. -/
structure Session.Numbered {κ σ : Type} (s : Session κ σ) : Prop where
  triggers : ∃ n, (storedTriggers s.journal).map TriggerId.raw = counted 1 n ∧
    s.engine.shelf.nextId.toNat = 1 + n
  handlers : ∃ n, (storedHandlers s.journal).map HandlerId.raw = counted 0 n ∧
    s.engine.listeners.nextHandler.toNat = 0 + n
  slots : ∀ id, s.engine.shelf.contains id = true → id ∈ storedTriggers s.journal
  codes : ∀ h, (s.engine.listeners.handler? h).isSome = true → h ∈ storedHandlers s.journal
  fires : ∀ id ∈ s.fires.map Fire.id, id ∈ storedTriggers s.journal

section
variable {κ σ α : Type} {allowed : Licence κ σ} {s s' : Session κ σ}

theorem handler?_of_isSome_change {c : Change κ α} {e : Engine κ} {h : HandlerId}
    (hh : ((c.apply e).2.listeners.handler? h).isSome = true) :
    .handlerStored h ∈ c.remarks e ∨ (e.listeners.handler? h).isSome = true := by
  rcases c.handlers_apply e with ⟨he, -⟩ | ⟨⟨code, hl⟩, hr, -⟩ | ⟨handler, hl, hr⟩
  · rw [he.handler?] at hh
    exact .inr hh
  · rw [hl, Listeners.handler?_addHandler] at hh
    split at hh
    · rename_i hid
      exact .inl (by rw [hr, hid]; exact List.mem_singleton_self _)
    · exact .inr hh
  · rw [hl, Listeners.handler?_removeHandler] at hh
    split at hh
    · cases hh
    · exact .inr hh

theorem counted_handlers (c : Change κ α) {e : Engine κ} {first n : Nat}
    (hn : e.listeners.nextHandler.toNat = first + n) (hfit : c.overflows e = false) :
    ∃ m, (storedHandlers (c.remarks e)).map HandlerId.raw ++ counted first n = counted first m ∧
      (c.apply e).2.listeners.nextHandler.toNat = first + m := by
  have hnone : ∀ ns : List (Notice κ), (∀ m ∈ ns, ∀ h, m ≠ .handlerStored h) →
      storedHandlers ns = [] := fun ns hns =>
    List.eq_nil_iff_forall_not_mem.2 fun h hh => hns _ (mem_storedHandlers.1 hh) h rfl
  rcases c.handlers_apply e with ⟨he, hr⟩ | ⟨⟨code, hl⟩, hr, hone⟩ | ⟨handler, hl, hr⟩
  · refine ⟨n, ?_, by rw [he.2, hn]⟩
    rw [hnone _ fun m hm h he => ?_]
    · rfl
    · rw [he] at hm
      cases hr _ hm
  · have hlt := (c.fits hfit).2
    rw [hone] at hlt
    refine ⟨n + 1, ?_, ?_⟩
    · rw [hr, counted, ← hn, UInt32.ofNat_toNat]
      rfl
    · rw [hl]
      show (e.listeners.nextHandler + 1).toNat = _
      rw [UInt32.toNat_add, UInt32.toNat_one, Nat.mod_eq_of_lt hlt, hn, Nat.add_assoc]
  · refine ⟨n, ?_, by rw [hl]; exact hn⟩
    rw [hr, hnone _ fun m hm h he => ?_]
    · rfl
    · rw [he, List.mem_ite_nil_right, List.mem_singleton] at hm
      cases hm.2

namespace Session.Numbered

theorem opening (world : WorldId) (settings : Settings) (host : σ) (budget : Nat) :
    (Session.opening (κ := κ) world settings host budget).Numbered where
  triggers := ⟨0, rfl, rfl⟩
  handlers := ⟨0, rfl, rfl⟩
  slots id h := by
    rw [Shelf.contains_eq] at h
    simp [Session.opening, Engine.new, Shelf.slots_new] at h
  codes h hh := by simp [Session.opening, Engine.new, Listeners.empty, Listeners.handler?] at hh
  fires id h := by cases h

/-- Every move keeps to the numbers. -/
theorem move (hm : Move allowed s s') (hs : s.Numbered) : s'.Numbered := by
  obtain ⟨ns, hj, hkind⟩ := hm.exists_kind
  cases hkind with
  | quiet ns he hj hn =>
    refine ⟨?_, ?_, ?_, ?_, ?_⟩
    · rw [hj, storedTriggers_of_isAside hn, he.shelf]
      exact hs.triggers
    · rw [hj, storedHandlers_of_isAside hn, he.listeners]
      exact hs.handlers
    · rw [hj, storedTriggers_of_isAside hn, he.shelf]
      exact hs.slots
    · rw [hj, storedHandlers_of_isAside hn, he.listeners]
      exact hs.codes
    · unfold Session.fires
      rw [hj, storedTriggers_of_isAside hn, fires_of_isAside hn]
      exact hs.fires
  | change c h hend hfit =>
    obtain ⟨n, hn, hnext⟩ := hs.triggers
    obtain ⟨m, hm, hnextH⟩ := hs.handlers
    refine ⟨⟨n + (c.stored s.engine).length, ?_, ?_⟩, ?_, ?_, ?_, ?_⟩
    · rw [storedTriggers_append, storedTriggers_notices, List.map_append, hn]
      exact (c.counted_apply hnext hfit).1
    · exact (c.counted_apply hnext hfit).2
    · rw [storedHandlers_append, storedHandlers_notices, List.map_append, hm]
      exact counted_handlers c hnextH hfit
    · intro id h
      rw [storedTriggers_append, storedTriggers_notices, List.mem_append, List.mem_reverse]
      rw [Shelf.contains_eq] at h
      rcases c.slot_cases s.engine id with ⟨hin, -⟩ | ⟨-, hid | hid | ⟨-, t, t', ht, -⟩⟩
      · exact .inl hin
      · rw [hid, ← Shelf.contains_eq] at h
        exact .inr (hs.slots id h)
      · rw [hid] at h
        cases h
      · refine .inr (hs.slots id ?_)
        rw [Shelf.contains_eq, ht]; rfl
    · intro h hh
      rw [storedHandlers_append, storedHandlers_notices, List.mem_append, mem_storedHandlers]
      exact (handler?_of_isSome_change hh).imp_right (hs.codes h)
    · intro id hid
      unfold Session.fires at hid
      rw [ids_fires_append fun _ => isOfFire_of_mem_notices] at hid
      rw [storedTriggers_append, List.mem_append]
      exact .inr (hs.fires id hid)
  | @checkOut id t h =>
    refine ⟨?_, hs.handlers, ?_, hs.codes, ?_⟩
    · obtain ⟨n, hn, hnext⟩ := hs.triggers
      refine ⟨n, hn, ?_⟩
      unfold Shelf.checkOut
      rw [h]
      exact hnext
    · intro i hi
      rw [Shelf.contains_checkOut h] at hi
      exact hs.slots i hi
    · intro i hi
      rcases List.mem_cons.1 hi with rfl | hi
      · exact hs.slots _ (Shelf.contains_of_get? h)
      · exact hs.fires i hi
  | @checkIn id t t' outer h ht =>
    refine ⟨?_, hs.handlers, ?_, hs.codes, ?_⟩
    · obtain ⟨n, hn, hnext⟩ := hs.triggers
      refine ⟨n, hn, ?_⟩
      unfold Shelf.checkIn
      split <;> exact hnext
    · intro i hi
      rw [Shelf.contains_checkIn] at hi
      exact hs.slots i hi
    · intro i hi
      refine hs.fires i ?_
      obtain ⟨f, hf, rfl⟩ := List.mem_map.1 hi
      exact List.mem_map_of_mem (List.mem_of_mem_tail hf)
  | handle h => exact ⟨hs.triggers, hs.handlers, hs.slots, hs.codes, hs.fires⟩

theorem nodup (hs : s.Numbered) : (storedTriggers s.journal).Nodup := by
  obtain ⟨n, hn, hnext⟩ := hs.triggers
  have hlt := s.engine.shelf.nextId.toNat_lt_size
  refine .of_map TriggerId.raw ?_
  rw [hn]
  exact nodup_counted (by omega)

theorem nodup_handlers (hs : s.Numbered) : (storedHandlers s.journal).Nodup := by
  obtain ⟨n, hn, hnext⟩ := hs.handlers
  have hlt := s.engine.listeners.nextHandler.toNat_lt_size
  refine .of_map HandlerId.raw ?_
  rw [hn]
  exact nodup_counted (by omega)

/-- A number that is given is new. -/
theorem fresh (hs : s.Numbered) {ns j : List (Notice κ)}
    (hj : s.journal = ns ++ j) {id : TriggerId} (hid : .stored id ∈ ns) :
    id ∉ storedTriggers j := by
  have hn := hs.nodup
  rw [hj, storedTriggers_append] at hn
  exact List.disjoint_of_nodup_append hn (mem_storedTriggers.2 hid)

theorem fresh_handler (hs : s.Numbered) {ns j : List (Notice κ)}
    (hj : s.journal = ns ++ j) {h : HandlerId} (hh : .handlerStored h ∈ ns) :
    h ∉ storedHandlers j := by
  have hn := hs.nodup_handlers
  rw [hj, storedHandlers_append] at hn
  exact List.disjoint_of_nodup_append hn (mem_storedHandlers.2 hh)

end Session.Numbered

end

end Encounter
