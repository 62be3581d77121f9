import Encounter.World
import Mathlib.Data.List.Nodup
import Mathlib.Data.List.Perm.Subperm

/-!
# The world, entity by entity

What each operation on the world does to the entity of one number. Creating an entity takes a number
that nobody has (`World.freeId_free`): the search looks at one number more than there are entities.
-/

set_option autoImplicit false

namespace Encounter

/-! ## Counting -/

/-- The first `n` numbers from `first` on, newest first. -/
def counted (first : Nat) : Nat → List UInt32
  | 0 => []
  | n + 1 => .ofNat (first + n) :: counted first n

theorem ofNat_add_one (n : Nat) : UInt32.ofNat n + 1 = .ofNat (n + 1) :=
  UInt32.toNat_inj.1 (by simp)

theorem length_counted (first : Nat) : ∀ n, (counted first n).length = n
  | 0 => rfl
  | n + 1 => by rw [counted, List.length_cons, length_counted first n]

theorem mem_counted {first n : Nat} {i : UInt32} :
    i ∈ counted first n ↔ ∃ k < n, i = .ofNat (first + k) := by
  induction n with
  | zero => simp [counted]
  | succ n ih =>
    rw [counted, List.mem_cons, ih]
    constructor
    · rintro (rfl | ⟨k, hk, rfl⟩)
      · exact ⟨n, by omega, rfl⟩
      · exact ⟨k, by omega, rfl⟩
    · rintro ⟨k, hk, rfl⟩
      rcases Nat.lt_succ_iff_lt_or_eq.1 hk with hk | rfl
      · exact .inr ⟨k, hk, rfl⟩
      · exact .inl rfl

/-- As long as the numbers do not run over, none comes twice. -/
theorem nodup_counted {first n : Nat} (hn : n ≤ UInt32.size) : (counted first n).Nodup := by
  induction n with
  | zero => exact List.nodup_nil
  | succ n ih =>
    rw [counted, List.nodup_cons]
    refine ⟨fun h => ?_, ih (by omega)⟩
    obtain ⟨k, hk, he⟩ := mem_counted.1 h
    have he := congrArg UInt32.toNat he
    have hsize : UInt32.size = 4294967296 := rfl
    simp only [UInt32.toNat_ofNat'] at he
    omega

/-! ## Lists of triggers -/

namespace Entity

variable {r : Entity} {id i : TriggerId}

theorem mem_attach : i ∈ (r.attach id).triggers ↔ i = id ∨ i ∈ r.triggers := by
  unfold attach
  split
  · rename_i h
    refine ⟨.inr, ?_⟩
    rintro (rfl | hi)
    · exact h
    · exact hi
  · rw [List.mem_append, List.mem_singleton, or_comm]

theorem mem_detach : i ∈ (r.detach id).triggers ↔ i ≠ id ∧ i ∈ r.triggers := by
  rw [detach, List.mem_filter, decide_eq_true_eq, and_comm]

theorem nodup_attach (h : r.triggers.Nodup) : (r.attach id).triggers.Nodup := by
  unfold attach
  split
  · exact h
  · rename_i hid
    exact h.append (List.nodup_singleton id) (by simpa using hid)

theorem nodup_detach (h : r.triggers.Nodup) : (r.detach id).triggers.Nodup :=
  h.filter _

end Entity

namespace World

variable {w w' : World} {x y : EntityId} {record : Entity}

/-! ## Rewriting -/

theorem entity?_modifyEntity {f : Entity → Entity} :
    (w.modifyEntity x f).entity? y = if x = y then (w.entity? y).map f else w.entity? y := by
  simp only [modifyEntity, entity?, Std.ExtTreeMap.getElem?_modify,
    Std.LawfulEqCmp.compare_eq_iff_eq]
  split
  · rename_i h; rw [h]
  · rfl

theorem isSome_entity?_modifyEntity {f : Entity → Entity} :
    ((w.modifyEntity x f).entity? y).isSome = (w.entity? y).isSome := by
  rw [entity?_modifyEntity]
  split <;> simp

/-! ## Free numbers -/

/-- If the search ends at a number that is taken, all those that it looked at are. -/
theorem freeId_taken {entities : Std.ExtTreeMap EntityId Entity} :
    ∀ (tries first : Nat), entities.contains ⟨freeId entities tries (.ofNat first)⟩ = true →
      ∀ i ∈ counted first (tries + 1), entities.contains ⟨i⟩ = true := by
  intro tries
  induction tries with
  | zero =>
    intro first h i hi
    obtain ⟨k, hk, rfl⟩ := mem_counted.1 hi
    cases Nat.lt_one_iff.1 hk
    exact h
  | succ tries ih =>
    intro first h i hi
    unfold freeId at h
    split at h
    · rename_i hfirst
      rw [ofNat_add_one] at h
      obtain ⟨k, hk, rfl⟩ := mem_counted.1 hi
      cases k with
      | zero => exact hfirst
      | succ k =>
        refine ih (first + 1) h _ (mem_counted.2 ⟨k, by omega, ?_⟩)
        rw [Nat.add_right_comm, Nat.add_assoc]
    · rename_i hfirst
      exact absurd h hfirst

/-- The search finds a number that nobody has, unless all are taken. -/
theorem freeId_free (h : w.isFull = false) :
    w.entity? ⟨freeId w.entities w.entities.size w.nextId⟩ = none := by
  rw [← Option.isNone_iff_eq_none, ← Option.isSome_eq_false_iff, ← Bool.not_eq_true]
  intro hsome
  have hsize : w.entities.size < UInt32.size := by simpa [isFull] using h
  have htaken : ∀ i ∈ counted w.nextId.toNat (w.entities.size + 1),
      w.entities.contains ⟨i⟩ = true := by
    refine freeId_taken _ _ ?_
    rw [UInt32.ofNat_toNat, Std.ExtTreeMap.contains_eq_isSome_getElem?]
    exact hsome
  -- there would be more keys than the map has
  have hnodup : ((counted w.nextId.toNat (w.entities.size + 1)).map EntityId.mk).Nodup :=
    List.Nodup.map (fun _ _ h => congrArg EntityId.raw h) (nodup_counted (by omega))
  have hsub : ∀ x ∈ (counted w.nextId.toNat (w.entities.size + 1)).map EntityId.mk,
      x ∈ w.entities.keys := by
    intro x hx
    obtain ⟨i, hi, rfl⟩ := List.mem_map.1 hx
    rw [Std.ExtTreeMap.mem_keys, ← Std.ExtTreeMap.contains_iff_mem]
    exact htaken i hi
  have hle := (hnodup.subperm hsub).length_le
  rw [List.length_map, length_counted, Std.ExtTreeMap.length_keys] at hle
  omega

/-! ## Coming and going -/

theorem spawn_id (name : String) (kind : EntityKind) (h : w.isFull = false) :
    w.entity? (w.spawn name kind).1 = none :=
  freeId_free h

theorem entity?_spawn (name : String) (kind : EntityKind) :
    (w.spawn name kind).2.entity? y =
      if (w.spawn name kind).1 = y then some { id := (w.spawn name kind).1, name, kind }
      else w.entity? y := by
  show (w.entities.insert (w.spawn name kind).1 _)[y]? = _
  simp only [Std.ExtTreeMap.getElem?_insert, Std.LawfulEqCmp.compare_eq_iff_eq, entity?]
  rfl

theorem insert_eq_ok (h : w.insert record = .ok (x, w')) :
    x = record.id ∧ w.entity? record.id = none ∧
      ∀ y, w'.entity? y = if record.id = y then some record else w.entity? y := by
  unfold insert at h
  split at h
  · cases h
  · rename_i hnew
    rw [Std.ExtTreeMap.contains_eq_isSome_getElem?, Bool.not_eq_true,
      Option.isSome_eq_false_iff, Option.isNone_iff_eq_none] at hnew
    have hget : ∀ y, (w.entities.insert record.id record)[y]? =
        if record.id = y then some record else w.entity? y := fun y => by
      simp only [Std.ExtTreeMap.getElem?_insert, Std.LawfulEqCmp.compare_eq_iff_eq, entity?]
    dsimp only at h
    split at h
    · cases h
      exact ⟨rfl, hnew, hget⟩
    · split at h
      · cases h
        exact ⟨rfl, hnew, hget⟩
      · cases h

theorem remove?_eq_some (h : w.remove? x = some (record, w')) : w.entity? x = some record ∧
    ∀ y, w'.entity? y = if x = y then none else w.entity? y := by
  unfold remove? at h
  split at h
  · cases h
  · rename_i r hx
    cases h
    refine ⟨hx, fun y => ?_⟩
    simp only [entity?, Std.ExtTreeMap.getElem?_erase, Std.LawfulEqCmp.compare_eq_iff_eq]

theorem remove?_isSome (h : (w.entity? x).isSome = true) :
    ∃ removed world, w.remove? x = some (removed, world) := by
  obtain ⟨record, hx⟩ := Option.isSome_iff_exists.1 h
  unfold remove?
  rw [hx]
  exact ⟨_, _, rfl⟩

/-! ## Placement -/

/-- Putting an entity on a tile leaves the entities their triggers. -/
theorem place_triggers {p : Position} (h : w.place x p = .ok w') (y : EntityId) :
    (w'.entity? y).map (·.triggers) = (w.entity? y).map (·.triggers) := by
  unfold place at h
  split at h
  · cases h
  · rename_i r hx
    dsimp only at h
    split at h
    · cases h
      simp only [entity?, Std.ExtTreeMap.getElem?_insert, Std.LawfulEqCmp.compare_eq_iff_eq]
      split
      · rename_i hy
        subst hy
        show some r.triggers = (w.entity? x).map (·.triggers)
        rw [hx]
        rfl
      · rfl
    · cases h

theorem move_triggers {p : Position} {moved : Bool} (h : w.move x p = .ok (moved, w'))
    (y : EntityId) : (w'.entity? y).map (·.triggers) = (w.entity? y).map (·.triggers) := by
  unfold move at h
  split at h
  · cases h
  · split at h
    · cases h
      rfl
    · cases hp : w.place x p with
      | error failure =>
        rw [hp] at h
        cases h
      | ok w₁ =>
        rw [hp] at h
        cases h
        exact place_triggers hp y

end World

end Encounter
