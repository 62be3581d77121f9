import Encounter.Proofs.Delivery

/-!
# The search for a free number

The search for a free number has no bound of its own: from the counter on, wrapping around, it looks
at one number after the other until nobody has it (`World.Finds`). It ends if and only if some
number is free (`exists_finds_iff`), since the numbers it passes are all taken and, until it comes
round, all different; `World.freeId`, which is told how often it may look, finds the same number
(`finds_nextId`). So whoever is created takes nobody's place (`spawn_takes_free`).
-/

set_option autoImplicit false

namespace Encounter

/-! ## One more key -/

section
variable {α β : Type} {cmp : α → α → Ordering} [Std.TransCmp cmp] [Std.LawfulEqCmp cmp]
  {m : Std.ExtTreeMap α β cmp} {k : α}

theorem nodup_keys (m : Std.ExtTreeMap α β cmp) : m.keys.Nodup := by
  refine m.distinct_keys.imp fun {a b} hne (he : a = b) => ?_
  subst he
  exact hne Std.ReflCmp.compare_self

theorem nodup_toList (m : Std.ExtTreeMap α β cmp) : m.toList.Nodup := by
  refine List.Nodup.of_map Prod.fst ?_
  rw [Std.ExtTreeMap.map_fst_toList_eq_keys]
  exact nodup_keys m

/-- A new key comes in between the others. -/
theorem toList_insert_of_none [DecidableEq α] (v : β) (h : m[k]? = none) :
    (m.insert k v).toList.filter (·.1 ≠ k) = m.toList := by
  have hmem : ∀ entry, entry ∈ (m.insert k v).toList.filter (·.1 ≠ k) ↔ entry ∈ m.toList := by
    rintro ⟨k', v'⟩
    rw [List.mem_filter, decide_eq_true_eq, Std.ExtTreeMap.mem_toList_iff_getElem?_eq_some,
      Std.ExtTreeMap.mem_toList_iff_getElem?_eq_some, Std.ExtTreeMap.getElem?_insert]
    by_cases hk : k = k'
    · subst hk
      simp [h]
    · simp [hk, Ne.symm hk]
  have hperm : ((m.insert k v).toList.filter (·.1 ≠ k)).Perm m.toList :=
    (List.perm_ext_iff_of_nodup ((nodup_toList _).filter _) (nodup_toList m)).2 hmem
  have hordered : ((m.insert k v).toList.filter (·.1 ≠ k)).Pairwise fun a b => cmp a.1 b.1 = .lt :=
    Std.ExtTreeMap.ordered_keys_toList.filter _
  refine hperm.eq_of_pairwise (fun a b _ _ hab hba => ?_) hordered
    Std.ExtTreeMap.ordered_keys_toList
  exact absurd hba (Std.OrientedCmp.not_lt_of_lt hab)

end

namespace World

variable {w : World} {entities : Std.ExtTreeMap EntityId Entity} {next id : UInt32}

/-! ## The loop -/

/-- The search for a free number, begun at the first one, ends at the second: it goes on to the next
number, wrapping around, as long as somebody has the one it looks at. -/
inductive Finds (entities : Std.ExtTreeMap EntityId Entity) : UInt32 → UInt32 → Prop
  | here {next : UInt32} (h : entities.contains ⟨next⟩ = false) : Finds entities next next
  | further {next id : UInt32} (h : entities.contains ⟨next⟩ = true)
      (rest : Finds entities (next + 1) id) : Finds entities next id

/-- Are the first `k` numbers from `next` on taken? -/
def Taken (entities : Std.ExtTreeMap EntityId Entity) (next : UInt32) (k : Nat) : Prop :=
  ∀ j < k, entities.contains ⟨next + .ofNat j⟩ = true

theorem add_ofNat_succ (next : UInt32) (k : Nat) :
    next + .ofNat (k + 1) = next + 1 + .ofNat k := by
  rw [← ofNat_add_one, UInt32.add_assoc, UInt32.add_comm 1]

theorem Taken.cons {k : Nat} (hfirst : entities.contains ⟨next⟩ = true)
    (h : Taken entities (next + 1) k) : Taken entities next (k + 1) := by
  rintro (_ | j) hj
  · simpa using hfirst
  · rw [add_ofNat_succ]
    exact h j (by omega)

theorem Taken.tail {k : Nat} (h : Taken entities next (k + 1)) : Taken entities (next + 1) k := by
  intro j hj
  rw [← add_ofNat_succ]
  exact h (j + 1) (by omega)

/-- The search passes over what is taken. -/
theorem Taken.finds {k : Nat} (h : Taken entities next k)
    (hrest : Finds entities (next + .ofNat k) id) : Finds entities next id := by
  induction k generalizing next with
  | zero => simpa using hrest
  | succ k ih =>
    have hfirst : entities.contains ⟨next⟩ = true := by simpa using h 0 (Nat.succ_pos k)
    rw [add_ofNat_succ] at hrest
    exact .further hfirst (ih h.tail hrest)

/-- Where the search ends, nobody is. -/
theorem Finds.free (h : Finds entities next id) : entities.contains ⟨id⟩ = false := by
  induction h with
  | here hfree => exact hfree
  | further _ _ ih => exact ih

/-- The search ends at one number only. -/
theorem Finds.unique {id' : UInt32} (h : Finds entities next id) (h' : Finds entities next id') :
    id = id' := by
  induction h with
  | here hfree =>
    cases h' with
    | here => rfl
    | further htaken => rw [hfree] at htaken; cases htaken
  | further htaken _ ih =>
    cases h' with
    | here hfree => rw [hfree] at htaken; cases htaken
    | further _ rest => exact ih rest

/-- With a bound, the search passes over what is taken as well. -/
theorem freeId_eq (entities : Std.ExtTreeMap EntityId Entity) (tries : Nat) (next : UInt32) :
    ∃ k ≤ tries, freeId entities tries next = next + .ofNat k ∧ Taken entities next k := by
  induction tries generalizing next with
  | zero => exact ⟨0, Nat.le_refl 0, by simp [freeId], fun _ h => absurd h (Nat.not_lt_zero _)⟩
  | succ tries ih =>
    unfold freeId
    split
    · rename_i hfirst
      obtain ⟨k, hk, he, htaken⟩ := ih (next + 1)
      exact ⟨k + 1, by omega, he.trans (add_ofNat_succ next k).symm, htaken.cons hfirst⟩
    · exact ⟨0, Nat.zero_le _, by simp, fun _ h => absurd h (Nat.not_lt_zero _)⟩

theorem not_contains_allocate (h : w.isFull = false) :
    w.entities.contains w.allocate.1 = false := by
  rw [Std.ExtTreeMap.contains_eq_isSome_getElem?]
  exact Option.isSome_eq_false_iff.2 (Option.isNone_iff_eq_none.2 (freeId_free h))

/-- Unless every number is taken, the search ends at the number that is handed out, and all that it
passed were taken. -/
theorem finds_nextId (h : w.isFull = false) : ∃ k ≤ w.entities.size,
    w.allocate.1.raw = w.nextId + .ofNat k ∧ Taken w.entities w.nextId k ∧
      Finds w.entities w.nextId w.allocate.1.raw := by
  obtain ⟨k, hk, he, htaken⟩ := freeId_eq w.entities w.entities.size w.nextId
  exact ⟨k, hk, he, htaken, htaken.finds (he ▸ .here (not_contains_allocate h))⟩

/-- There are no more entities than numbers. -/
theorem contains_of_isFull (h : w.isFull = true) (x : EntityId) : w.entities.contains x = true := by
  have hsize : UInt32.size ≤ w.entities.size := by simpa [isFull] using h
  by_contra hx
  rw [Std.ExtTreeMap.contains_iff_mem, ← Std.ExtTreeMap.mem_keys] at hx
  have hnodup : (x :: w.entities.keys).Nodup :=
    List.nodup_cons.2 ⟨hx, nodup_keys w.entities⟩
  have hsub : ∀ y ∈ x :: w.entities.keys, y ∈ (counted 0 UInt32.size).map EntityId.mk := by
    rintro ⟨i⟩ -
    refine List.mem_map.2 ⟨i, mem_counted.2 ⟨i.toNat, i.toNat_lt, ?_⟩, rfl⟩
    rw [Nat.zero_add, UInt32.ofNat_toNat]
  have hle := (hnodup.subperm hsub).length_le
  rw [List.length_cons, Std.ExtTreeMap.length_keys, List.length_map, length_counted] at hle
  omega

/-- The search ends unless every number is taken. -/
theorem exists_finds_iff : (∃ id, Finds w.entities w.nextId id) ↔ w.isFull = false := by
  constructor
  · rintro ⟨id, h⟩
    by_contra hfull
    have hfree := h.free
    rw [contains_of_isFull (Bool.not_eq_false _ ▸ hfull)] at hfree
    cases hfree
  · intro h
    obtain ⟨k, -, -, -, hfinds⟩ := finds_nextId h
    exact ⟨_, hfinds⟩

/-! ## Creating an entity -/

theorem placed_spawn (name : String) (kind : EntityKind) (h : w.isFull = false) :
    (w.spawn name kind).2.placed = w.placed := by
  have hnew : w.entities[w.allocate.1]? = none := freeId_free h
  rw [placed, placed, toList_eq, toList_eq, ← toList_insert_of_none _ hnew, List.filterMap_map,
    List.filterMap_map, List.filterMap_filter]
  refine List.filterMap_congr fun entry hentry => ?_
  split
  · rfl
  · -- the new entity has no position
    rename_i hkey
    have hkey : (w.spawn name kind).1 = entry.1 := by
      rw [decide_eq_true_eq, not_not] at hkey
      exact hkey.symm
    have hget : (w.spawn name kind).2.entity? entry.1 = some entry.2 :=
      Std.ExtTreeMap.mem_toList_iff_getElem?_eq_some.1 hentry
    rw [entity?_spawn, if_pos hkey] at hget
    show entry.2.position.map _ = none
    rw [← Option.some.inj hget]
    rfl

/-- What it comes to when an entity is created under a number. -/
structure Spawns (w : World) (name : String) (kind : EntityKind) (id : EntityId) : Prop where
  /-- From the counter on, the search for a free number ends here and nowhere else. -/
  found : ∀ next, Finds w.entities w.nextId next ↔ next = id.raw
  /-- It passes no more numbers than there are entities, and all of them are taken. -/
  passed : ∃ k ≤ w.entities.size, id.raw = w.nextId + .ofNat k ∧ Taken w.entities w.nextId k
  free : w.entity? id = none
  handedOut : w.allocate.1 = id
  /-- Handing the number out changes nothing but the counter. -/
  counter : w.allocate.2 = { w with nextId := w.allocate.2.nextId }
  answer : (w.spawn name kind).1 = id
  /-- There is one entity more, under that number. -/
  oneMore : (w.spawn name kind).2.entities.size = w.entities.size + 1
  /-- All others stay as they are, -/
  others : ∀ x, (w.spawn name kind).2.entity? x =
    if x = id then some { id, name, kind } else w.entity? x
  /-- and so do the tiles and who stands where. -/
  tiles : (w.spawn name kind).2.grid = w.grid
  placed : (w.spawn name kind).2.placed = w.placed

/-- Numbers are handed out and nobody is overwritten, as long as there are fewer entities than
numbers, whatever the counter and the numbers that are taken. -/
theorem spawn_takes_free (w : World) (name : String) (kind : EntityKind)
    (h : w.entities.size < UInt32.size) : w.Spawns name kind w.allocate.1 := by
  have hfull : w.isFull = false := by simpa [isFull] using h
  obtain ⟨k, hk, he, htaken, hfinds⟩ := finds_nextId hfull
  exact {
    found := fun next => ⟨fun h => h.unique hfinds, fun h => h ▸ hfinds⟩
    passed := ⟨k, hk, he, htaken⟩
    free := freeId_free hfull
    handedOut := rfl
    counter := rfl
    answer := rfl
    oneMore := by
      show (w.entities.insert w.allocate.1 _).size = _
      rw [Std.ExtTreeMap.size_insert, not_contains_allocate hfull]
      rfl
    others := fun x => by
      rw [entity?_spawn]
      exact if_congr eq_comm rfl rfl
    tiles := rfl
    placed := placed_spawn name kind hfull }

/-- A world whose largest number is taken, and whose counter stands there. -/
def atTheTop : World :=
  let last : Entity := { id := ⟨0xffffffff⟩, name := "last", kind := .object }
  { new default default with
    entities := Std.ExtTreeMap.insert ∅ last.id last
    nextId := 0xffffffff }

theorem spawn_takes_free_atTheTop :
    atTheTop.entities.size < UInt32.size ∧ (atTheTop.spawn "next" .npc).1 = ⟨0⟩ ∧
      (atTheTop.spawn "next" .npc).2.entity? ⟨0xffffffff⟩ = atTheTop.entity? ⟨0xffffffff⟩ := by
  have hsize : atTheTop.entities.size < UInt32.size := by decide +kernel
  have hspawns := spawn_takes_free atTheTop "next" .npc hsize
  have hzero : atTheTop.allocate.1 = ⟨0⟩ := by decide +kernel
  refine ⟨hsize, hspawns.answer.trans hzero, (hspawns.others _).trans (if_neg ?_)⟩
  rw [hzero]
  decide

end World

end Encounter
