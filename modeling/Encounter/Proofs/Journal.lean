import Encounter.Engine.Run
import Encounter.Proofs.Shelf

/-!
# What a journal tells

A journal, newest entry first, tells which fires are under way (`fires`, innermost first) and which
numbers were ever given to triggers and handlers (`storedTriggers`, `storedHandlers`). Entries that
tell neither of the start nor of the end of a fire leave the stack of fires as it is
(`underway_append`), apart from marking those whose trigger was removed (`fires_append`).
-/

set_option autoImplicit false

namespace Encounter

/-- A fire under way: whose it is, the trigger as it was taken off the shelf, and whether its slot
was removed since. -/
structure Fire (κ : Type) where
  id : TriggerId
  trigger : Trigger κ
  removed : Bool

namespace Notice

variable {κ : Type}

/-- Does the notice tell of the start or the end of a fire? -/
def isOfFire : Notice κ → Bool
  | .firing .. => true
  | .fired .. => true
  | _ => false

/-- Does the notice tell of a slot that was made, removed, emptied or filled? -/
def isOfShelf : Notice κ → Bool
  | .firing .. => true
  | .fired .. => true
  | .stored _ => true
  | .dropped _ => true
  | _ => false

/-- Does the notice tell that the slot of the trigger was removed? -/
def drops (id : TriggerId) : Notice κ → Bool
  | .dropped i => i = id
  | _ => false

theorem drops_iff {id : TriggerId} {n : Notice κ} : n.drops id = true ↔ n = .dropped id := by
  cases n <;> simp [drops]

end Notice

namespace Journal

variable {κ : Type}

/-- The fires under way, innermost first. -/
def fires : List (Notice κ) → List (Fire κ)
  | [] => []
  | .firing id t :: earlier => ⟨id, t, false⟩ :: fires earlier
  | .fired _ _ :: earlier => (fires earlier).tail
  | .dropped id :: earlier =>
    (fires earlier).map fun f => { f with removed := f.removed || id = f.id }
  | _ :: earlier => fires earlier

/-- The fires under way, without regard to removals. -/
def underway (j : List (Notice κ)) : List (TriggerId × Trigger κ) :=
  (fires j).map fun f => (f.id, f.trigger)

/-- The trigger of the fire under way that still has its slot. -/
def firing? (j : List (Notice κ)) (id : TriggerId) : Option (Trigger κ) :=
  ((fires j).find? fun f => f.id = id && !f.removed).map Fire.trigger

/-- The numbers that were given to triggers, newest first. -/
def storedTriggers (j : List (Notice κ)) : List TriggerId :=
  j.filterMap fun
    | .stored id => some id
    | _ => none

/-- The numbers that were given to handlers, newest first. -/
def storedHandlers (j : List (Notice κ)) : List HandlerId :=
  j.filterMap fun
    | .handlerStored id => some id
    | _ => none

variable {j ns : List (Notice κ)} {n : Notice κ} {id : TriggerId} {t : Trigger κ}

/-! ## Fires -/

theorem fires_cons (hn : n.isOfFire = false) :
    fires (n :: j) = (fires j).map fun f => { f with removed := f.removed || n.drops f.id } := by
  cases n with
  | firing | fired => cases hn
  | dropped => rfl
  | _ => simp [fires, Notice.drops]

/-- Entries that do not tell of fires mark those whose trigger they remove, and that is all. -/
theorem fires_append (hn : ∀ n ∈ ns, n.isOfFire = false) :
    fires (ns ++ j) =
      (fires j).map fun f => { f with removed := f.removed || ns.any (·.drops f.id) } := by
  induction ns with
  | nil => simp
  | cons n ns ih =>
    rw [List.cons_append, fires_cons (hn n (by simp)), ih fun m hm => hn m (by simp [hm]),
      List.map_map]
    refine List.map_congr_left fun f _ => ?_
    simp [Bool.or_assoc, Bool.or_comm]

theorem any_drops : (ns.any fun n => n.drops id) = true ↔ .dropped id ∈ ns := by
  rw [List.any_eq_true]
  constructor
  · rintro ⟨n, hn, hd⟩
    rw [Notice.drops_iff] at hd
    exact hd ▸ hn
  · exact fun h => ⟨_, h, Notice.drops_iff.2 rfl⟩

theorem mem_fires_append (hn : ∀ n ∈ ns, n.isOfFire = false) {f : Fire κ} :
    f ∈ fires (ns ++ j) ↔
      ∃ g ∈ fires j, { g with removed := g.removed || ns.any (·.drops g.id) } = f := by
  rw [fires_append hn, List.mem_map]

theorem isSome_firing? : (firing? j id).isSome = true ↔
    ∃ f ∈ fires j, f.id = id ∧ f.removed = false := by
  simp [firing?, List.find?_isSome]

theorem firing?_append (hn : ∀ n ∈ ns, n.isOfFire = false) (hd : .dropped id ∉ ns) :
    firing? (ns ++ j) id = firing? j id := by
  have hany : (ns.any fun n => n.drops id) = false := by
    rw [← Bool.not_eq_true, any_drops]
    exact hd
  rw [firing?, fires_append hn, List.find?_map, Option.map_map]
  refine congrArg (fun p => ((fires j).find? p).map Fire.trigger) ?_
  funext f
  by_cases hid : f.id = id
  · subst hid
    simp [hany]
  · simp [hid]

@[simp] theorem underway_fired : underway (.fired id t :: j) = (underway j).tail := by
  simp only [underway, fires, List.map_tail]

theorem underway_append (hn : ∀ n ∈ ns, n.isOfFire = false) :
    underway (ns ++ j) = underway j := by
  simp only [underway, fires_append hn, List.map_map, Function.comp_def]

theorem underway_cons (hn : n.isOfFire = false) : underway (n :: j) = underway j :=
  @underway_append κ j [n] (by simpa using hn)

/-- An entry of a continued journal is old or new. -/
theorem split_append {later earlier : List (Notice κ)} (h : ns ++ j = later ++ n :: earlier) :
    (∃ later', later = ns ++ later' ∧ j = later' ++ n :: earlier) ∨
      ∃ rest, ns = later ++ n :: rest ∧ earlier = rest ++ j := by
  rcases List.append_eq_append_iff.1 h with ⟨later', hl, hj⟩ | ⟨rest, hns, hr⟩
  · exact .inl ⟨later', hl, hj⟩
  · cases rest with
    | nil =>
      rw [List.append_nil] at hns
      exact .inl ⟨[], by rw [hns, List.append_nil], hr.symm⟩
    | cons m rest =>
      cases hr
      exact .inr ⟨rest, hns, rfl⟩

/-! ## What changes write -/

theorem isOfShelf_of_mem_remarks {α : Type} {c : Change κ α} {e : Engine κ}
    (hn : n ∈ c.remarks e) : n.isOfShelf = false := by
  unfold Change.remarks at hn
  split at hn
  case h_7 =>
    rw [Option.mem_toList, Option.map_eq_some_iff] at hn
    obtain ⟨_, -, rfl⟩ := hn
    rfl
  all_goals try split at hn
  all_goals simp_all [Notice.isOfShelf]

theorem isOfFire_of_mem_notices {α : Type} {c : Change κ α} {before after : Engine κ}
    (hn : n ∈ c.notices before after) : n.isOfFire = false := by
  simp only [Change.notices, List.mem_append, List.mem_map] at hn
  rcases hn with ⟨id, -, rfl⟩ | ⟨id, -, rfl⟩ | hn
  · rfl
  · rfl
  · have h := isOfShelf_of_mem_remarks hn
    cases n <;> first | rfl | cases h

theorem stored_mem_notices {α : Type} {c : Change κ α} {before after : Engine κ} :
    .stored id ∈ c.notices before after ↔ id ∈ c.stored before := by
  have hr : .stored id ∉ c.remarks before := fun h => by cases isOfShelf_of_mem_remarks h
  simp [Change.notices, hr]

/-- A change that keeps the shelf and stores nothing writes down what it remarks. -/
theorem notices_eq_remarks {α : Type} {c : Change κ α} {e : Engine κ} (hs : c.stored e = [])
    (hshelf : (c.apply e).2.shelf = e.shelf) : c.notices e (c.apply e).2 = c.remarks e := by
  have hnone : (e.shelf.ids.filter fun id => !(c.apply e).2.shelf.contains id) = [] := by
    rw [List.filter_eq_nil_iff]
    intro id hid
    rw [hshelf, Shelf.mem_ids.1 hid]
    decide
  simp [Change.notices, hs, hnone]

/-- A change writes down which slots it removes. -/
theorem dropped_mem_notices {α : Type} {c : Change κ α} {before after : Engine κ} :
    .dropped id ∈ c.notices before after ↔
      before.shelf.contains id = true ∧ after.shelf.contains id = false := by
  have hr : .dropped id ∉ c.remarks before := fun h => by cases isOfShelf_of_mem_remarks h
  simp [Change.notices, hr, Shelf.mem_ids]

/-! ## Numbers -/

theorem mem_storedTriggers : id ∈ storedTriggers j ↔ .stored id ∈ j := by
  simp only [storedTriggers, List.mem_filterMap]
  constructor
  · rintro ⟨n, hn, he⟩
    cases n <;> simp_all
  · exact fun h => ⟨_, h, rfl⟩

theorem mem_storedHandlers {h : HandlerId} : h ∈ storedHandlers j ↔ .handlerStored h ∈ j := by
  simp only [storedHandlers, List.mem_filterMap]
  constructor
  · rintro ⟨n, hn, he⟩
    cases n <;> simp_all
  · exact fun h => ⟨_, h, rfl⟩

theorem storedTriggers_append (ns j : List (Notice κ)) :
    storedTriggers (ns ++ j) = storedTriggers ns ++ storedTriggers j :=
  List.filterMap_append

theorem storedHandlers_append (ns j : List (Notice κ)) :
    storedHandlers (ns ++ j) = storedHandlers ns ++ storedHandlers j :=
  List.filterMap_append

/-- A change writes down the numbers that it gives to triggers. -/
theorem storedTriggers_notices {α : Type} (c : Change κ α) (before after : Engine κ) :
    storedTriggers (c.notices before after) = (c.stored before).reverse := by
  have hs : ∀ ids : List TriggerId, storedTriggers (ids.map (.stored (κ := κ))) = ids := by
    intro ids
    simp [storedTriggers, List.filterMap_map]
  have hd : ∀ ids : List TriggerId, storedTriggers (ids.map (.dropped (κ := κ))) = [] := by
    intro ids
    simp [storedTriggers]
  have hr : storedTriggers (c.remarks before) = [] := by
    refine List.eq_nil_iff_forall_not_mem.2 fun id h => ?_
    cases isOfShelf_of_mem_remarks (mem_storedTriggers.1 h)
  rw [Change.notices, storedTriggers_append, storedTriggers_append, hs, hd, hr]
  simp

/-- Numbers of handlers are written down as remarks. -/
theorem storedHandlers_notices {α : Type} (c : Change κ α) (before after : Engine κ) :
    storedHandlers (c.notices before after) = storedHandlers (c.remarks before) := by
  have hs : ∀ ids : List TriggerId, storedHandlers (ids.map (.stored (κ := κ))) = [] := by
    intro ids
    simp [storedHandlers]
  have hd : ∀ ids : List TriggerId, storedHandlers (ids.map (.dropped (κ := κ))) = [] := by
    intro ids
    simp [storedHandlers]
  rw [Change.notices, storedHandlers_append, storedHandlers_append, hs, hd]
  rfl

end Journal

/-- The fires under way, innermost first. -/
def Session.fires {κ σ : Type} (s : Session κ σ) : List (Fire κ) :=
  Journal.fires s.journal

/-- The fires under way, without regard to removals. -/
def Session.underway {κ σ : Type} (s : Session κ σ) : List (TriggerId × Trigger κ) :=
  Journal.underway s.journal

end Encounter
