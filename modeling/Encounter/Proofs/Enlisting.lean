import Encounter.Proofs.Coherence
import Encounter.Proofs.Numbering

/-!
# New triggers of an entity

No table mentions a number that was never given (`Session.Mentioned.move`), whatever is done to the
entities and their lists. So a trigger that is registered for an entity meets nothing of its number
(`Engine.Unused.register_eq`): it gets a slot, becomes live, listens to its event behind all who did
so before, belongs to the entity and comes last on its list, and no other entry of any table changes
(`Engine.Enlists`, `Engine.Unused.registerAll`).
-/

set_option autoImplicit false

namespace Encounter

open Journal

/-! ## What the tables mention -/

namespace Engine

variable {κ : Type} {e e' : Engine κ} {x : EntityId} {i id : TriggerId} {t : Trigger κ}

/-- The roster, the owners or the listeners mention the trigger. -/
def Mentions (e : Engine κ) (id : TriggerId) : Prop :=
  e.roster.contains id = true ∨ (e.owners[id]?).isSome = true ∨
    ∃ event, .trigger id ∈ e.listeners.subscribers event

theorem mentions_activate (h : (e.activate id).Mentions i) :
    e.Mentions i ∨ i = id ∧ e.shelf.contains id = true := by
  cases ht : e.shelf.get? id with
  | none => exact .inl (activate_of_none ht ▸ h)
  | some t =>
    have hin := Shelf.contains_of_get? ht
    rw [activate_of_get? ht] at h
    rcases h with h | h | ⟨event, h⟩
    · rcases contains_add_iff.1 h with rfl | h
      · exact .inr ⟨rfl, hin⟩
      · exact .inl (.inl h)
    · exact .inl (.inr (.inl h))
    · rcases Listeners.mem_subscribe.1 h with ⟨-, he⟩ | h
      · exact .inr ⟨Subscriber.trigger.inj he, hin⟩
      · exact .inl (.inr (.inr ⟨event, h⟩))

theorem mentions_attach (ha : e.attach x id = .ok e') (h : e'.Mentions i) :
    e.Mentions i ∨ i = id ∧ e.shelf.contains id = true := by
  obtain ⟨hin, -, rfl⟩ := attach_eq_ok.1 ha
  rcases mentions_activate h with h | h
  · rcases h with h | h | h
    · exact .inl (.inl h)
    · simp only [Std.ExtTreeMap.getElem?_insert, Std.LawfulEqCmp.compare_eq_iff_eq] at h
      split at h
      · rename_i he
        exact .inr ⟨he.symm, hin⟩
      · exact .inl (.inr (.inl h))
    · exact .inl (.inr (.inr h))
  · exact .inr h

theorem mentions_registerGlobal (h : (e.registerGlobal t).2.Mentions i) :
    e.Mentions i ∨ i = ⟨e.shelf.nextId⟩ := by
  rw [registerGlobal_eq] at h
  exact (mentions_activate h).imp_right And.left

theorem mentions_register (hr : e.register x t = .ok (id, e')) (h : e'.Mentions i) :
    e.Mentions i ∨ i = id := by
  obtain ⟨t', -, rfl, ha⟩ := register_eq_ok hr
  rcases mentions_attach ha h with h | ⟨rfl, -⟩
  · exact mentions_registerGlobal h
  · exact .inr rfl

theorem mentions_registerAll {triggers : List (Trigger κ)} {ids : List TriggerId}
    (hr : e.registerAll x triggers = .ok (ids, e')) (h : e'.Mentions i) :
    e.Mentions i ∨ i ∈ ids := by
  induction triggers generalizing e ids with
  | nil =>
    cases hr
    exact .inl h
  | cons t rest ih =>
    obtain ⟨id, e₁, ids', h₁, h₂, rfl⟩ := registerAll_cons_eq_ok hr
    rcases ih h₂ with h | h
    · exact (mentions_register h₁ h).imp_right fun he => List.mem_cons.2 (.inl he)
    · exact .inr (List.mem_cons_of_mem _ h)

theorem mentions_removeTriggers (ids : List TriggerId) (h : (e.removeTriggers ids).Mentions i) :
    e.Mentions i := by
  refine removeTriggers_keeps (P := fun e' : Engine κ => e'.Mentions i → e.Mentions i) ?_ ids e
    (fun h => h) h
  intro e₁ j answer e₂ h₁ hr h
  obtain ⟨-, -, rfl⟩ := removeTrigger_eq_ok.1 hr
  refine h₁ ?_
  rcases h with h | h | ⟨event, h⟩
  · simp only [Roster.contains, Roster.remove, Std.ExtTreeMap.contains_erase] at h
    exact .inl (Bool.and_eq_true_iff.1 h).2
  · simp only [Std.ExtTreeMap.getElem?_erase] at h
    split at h
    · cases h
    · exact .inr (.inl h)
  · exact .inr (.inr ⟨event, (Listeners.mem_unsubscribeAll.1 h).2⟩)

end Engine

open Engine in
/-- A change mentions nothing that was not mentioned, had a slot or is stored by it. -/
theorem Change.mentions {κ α : Type} {e : Engine κ} {i : TriggerId} (c : Change κ α)
    (h : (c.apply e).2.Mentions i) :
    e.Mentions i ∨ i ∈ c.stored e ∨ e.shelf.contains i = true := by
  have hrefuse : ∀ {β : Type} {r : Except Failure (β × Engine κ)},
      (∀ b e', r = .ok (b, e') → e'.Mentions i →
        e.Mentions i ∨ i ∈ c.stored e ∨ e.shelf.contains i = true) →
      (e.orRefuse r).2.Mentions i → e.Mentions i ∨ i ∈ c.stored e ∨ e.shelf.contains i = true :=
    fun hr => orRefuse_cases (P := fun e' => e'.Mentions i → _) .inl hr
  cases c with
  | insert | place | move =>
    exact .inl (onWorldOrRefuse_cases (P := fun e' : Engine κ => e'.Mentions i → e.Mentions i)
      (fun h => h) (fun _ _ _ h => h) h)
  | removeEntity x =>
    refine hrefuse (fun removed e' hr h => ?_) h
    obtain ⟨world, -, rfl⟩ := removeEntity_eq_ok hr
    exact .inl (mentions_removeTriggers _ h)
  | register x t =>
    refine hrefuse (fun id e' hr h => ?_) h
    refine (mentions_register hr h).imp_right fun he => .inl ?_
    simp [Change.stored_register hr, he]
  | registerGlobal t =>
    exact (mentions_registerGlobal h).imp_right fun he => .inl (List.mem_singleton.2 he)
  | attach x id =>
    refine hrefuse (fun _ e' hr h => ?_) h
    obtain ⟨e₁, ha, he⟩ := map_eq_ok.1 hr
    cases he
    rcases mentions_attach ha h with h | ⟨rfl, hin⟩
    · exact .inl h
    · exact .inr (.inr hin)
  | removeTrigger id =>
    refine hrefuse (fun answer e' hr h => .inl ?_) h
    have hsame : e.removeTriggers [id] = e' := by simp [removeTriggers, hr]
    exact mentions_removeTriggers [id] (hsame ▸ h)
  | addPresets x =>
    refine hrefuse (fun ids e' hr h => ?_) h
    obtain ⟨_, -, hall⟩ := addPresets_eq_ok hr
    exact Change.stored_addPresets hr ▸ (mentions_registerAll hall h).imp_right .inl
  | load record =>
    refine hrefuse (fun x e' hr h => ?_) h
    obtain ⟨⟨⟨x, ids⟩, e₁⟩, hl, he⟩ := map_eq_ok.1 hr
    cases he
    obtain ⟨name, kind, stats, triggers, -, -, hall⟩ := load_eq_ok hl
    exact Change.stored_load hl ▸ (mentions_registerAll hall h).imp_right .inl
  | resetEvents =>
    refine .inl (mentions_removeTriggers e.roster.toList ?_)
    rcases h with h | h | ⟨event, h⟩
    · exact .inl h
    · exact .inr (.inl h)
    · change _ ∈ (Listeners.reset _).subscribers event at h
      rw [Listeners.subscribers_reset] at h
      cases h
  | removeHandler handler =>
    rcases h with h | h | ⟨event, h⟩
    · exact .inl (.inl h)
    · exact .inl (.inr (.inl h))
    · change _ ∈ (e.listeners.removeHandler handler).subscribers event at h
      rw [Listeners.subscribers_removeHandler] at h
      exact .inl (.inr (.inr ⟨event, List.mem_of_mem_filter h⟩))
  | subscribe event handler =>
    rcases h with h | h | ⟨event', h⟩
    · exact .inl (.inl h)
    · exact .inl (.inr (.inl h))
    · rcases Listeners.mem_subscribe.1 h with ⟨-, he⟩ | h
      · cases he
      · exact .inl (.inr (.inr ⟨event', h⟩))
  | unsubscribe event handler =>
    rcases h with h | h | ⟨event', h⟩
    · exact .inl (.inl h)
    · exact .inl (.inr (.inl h))
    · change _ ∈ (e.listeners.unsubscribe event _).subscribers event' at h
      rw [Listeners.subscribers_unsubscribe] at h
      refine .inl (.inr (.inr ⟨event', ?_⟩))
      split at h
      · exact List.mem_of_mem_filter h
      · exact h
  | dequeue =>
    have hs := sameTables_dequeue e
    refine .inl ?_
    change e.dequeue.2.Mentions i at h
    unfold Mentions at h ⊢
    rwa [hs.roster, hs.owners, hs.listeners] at h
  | addConditionType | addReactionType | nameCondition | nameReaction =>
    refine hrefuse (fun _ e' hr h => ?_) h
    obtain ⟨_, -, he⟩ := map_eq_ok.1 hr
    cases he
    exact .inl h
  | _ => exact .inl h

namespace Session

variable {κ σ : Type} {allowed : Licence κ σ} {s s' : Session κ σ}

/-- No table mentions a trigger that was never stored. -/
def Mentioned (s : Session κ σ) : Prop :=
  ∀ id, s.engine.Mentions id → id ∈ storedTriggers s.journal

theorem Mentioned.move (hm : Move allowed s s') (hn : s.Numbered) (h : s.Mentioned) :
    s'.Mentioned := by
  obtain ⟨ns, hj, hkind⟩ := hm.exists_kind
  intro id hid
  rw [hj, storedTriggers_append, List.mem_append]
  cases hkind with
  | quiet ns he =>
    refine .inr (h id ?_)
    unfold Engine.Mentions at hid ⊢
    rwa [he.roster, he.owners, he.listeners] at hid
  | change c =>
    rw [storedTriggers_notices, List.mem_reverse]
    rcases c.mentions hid with hid | hid | hid
    · exact .inr (h id hid)
    · exact .inl hid
    · exact .inr (hn.slots id hid)
  | checkOut | checkIn | handle => exact .inr (h id hid)

/-- What holds of every session of a run, whatever may be done in it. -/
theorem tables_of_free_moves {world : WorldId} {settings : Settings} {state : σ} {budget : Nat}
    (hm : Moves allowed (opening world settings state budget) s) :
    s.Numbered ∧ s.Disciplined ∧ s.Mentioned :=
  hm.keep (P := fun s => s.Numbered ∧ s.Disciplined ∧ s.Mentioned)
    (fun _ _ hm hs => ⟨hs.1.move hm, hs.2.1.move hm hs.1, hs.2.2.move hm hs.1⟩)
    ⟨.opening .., .opening .., fun id h => by
      simp [Engine.Mentions, opening, Engine.new, Roster.empty, Roster.contains] at h⟩

end Session

/-! ## Registering under new numbers -/

/-- From the next number on, no number has a slot or is mentioned. -/
structure Engine.Unused {κ : Type} (e : Engine κ) : Prop where
  slots : ∀ id : TriggerId, e.shelf.nextId ≤ id.raw → e.shelf.contains id = false
  tables : ∀ id : TriggerId, e.shelf.nextId ≤ id.raw → ¬e.Mentions id

theorem Session.Numbered.lt_nextId {κ σ : Type} {s : Session κ σ} {id : TriggerId}
    (hn : s.Numbered) (h : id ∈ storedTriggers s.journal) : id.raw < s.engine.shelf.nextId := by
  obtain ⟨n, hids, hnext⟩ := hn.triggers
  have hlt := s.engine.shelf.nextId.toNat_lt_size
  have hraw : id.raw ∈ counted 1 n := hids ▸ List.mem_map_of_mem h
  obtain ⟨k, hk, hid⟩ := mem_counted.1 hraw
  rw [UInt32.lt_iff_toNat_lt, hid, UInt32.toNat_ofNat_of_lt' (by omega)]
  omega

theorem Session.unused {κ σ : Type} {s : Session κ σ} (hn : s.Numbered) (h : s.Mentioned) :
    s.engine.Unused where
  slots id hid := by
    rw [← Bool.not_eq_true]
    exact fun hin => absurd hid (UInt32.not_le.2 (hn.lt_nextId (hn.slots id hin)))
  tables id hid hm := absurd hid (UInt32.not_le.2 (hn.lt_nextId (h id hm)))

namespace Engine

variable {κ : Type} {e e' e'' : Engine κ} {x : EntityId} {ids ids' : List TriggerId}
  {ts ts' : List (Trigger κ)} {record : Entity}

/-- New triggers were given to an entity, and nothing has changed for any other trigger. -/
structure Enlists (e : Engine κ) (x : EntityId) (ids : List TriggerId) (ts : List (Trigger κ))
    (e' : Engine κ) : Prop where
  new : ∀ id ∈ ids, e.shelf.contains id = false ∧ ¬e.Mentions id
  once : ids.Nodup
  /-- They are on the shelf. -/
  shelf : ids.map e'.shelf.get? = ts.map some
  /-- They are live, and come from where they say. -/
  live : ids.map (e'.roster.origins[·]?) = ts.map fun t => some (t.head.source.getD Roster.unknown)
  owned : ∀ id ∈ ids, e'.owners[id]? = some x
  /-- They listen to their events, each behind all that did before. -/
  heard : ∀ event, e'.listeners.subscribers event = e.listeners.subscribers event ++
    ((ids.zip ts).filter fun p => p.2.event = event).map fun p => .trigger p.1
  otherSlots : ∀ id ∉ ids, e'.shelf.slots[id]? = e.shelf.slots[id]?
  otherOrigins : ∀ id ∉ ids, e'.roster.origins[id]? = e.roster.origins[id]?
  otherOwners : ∀ id ∉ ids, e'.owners[id]? = e.owners[id]?

/-- The triggers come last on the list of the entity, and no entity changes otherwise. -/
def Lists (e : Engine κ) (x : EntityId) (ids : List TriggerId) (e' : Engine κ) : Prop :=
  ∀ y, e'.world.entity? y = (e.world.entity? y).map fun r =>
    if y = x then { r with triggers := r.triggers ++ ids } else r

theorem Lists.nil : e.Lists x [] e := fun y => by simp

theorem Lists.trans (h : e.Lists x ids e') (h' : e'.Lists x ids' e'') :
    e.Lists x (ids ++ ids') e'' := fun y => by
  rw [h' y, h y, Option.map_map]
  congr 1
  funext r
  by_cases hy : y = x <;> simp [hy]

namespace Enlists

theorem nil : e.Enlists x [] [] e where
  new id h := by cases h
  once := List.nodup_nil
  shelf := rfl
  live := rfl
  owned id h := by cases h
  heard event := (List.append_nil _).symm
  otherSlots _ _ := rfl
  otherOrigins _ _ := rfl
  otherOwners _ _ := rfl

theorem length_eq (h : e.Enlists x ids ts e') : ids.length = ts.length := by
  simpa using congrArg List.length h.shelf

theorem contains (h : e.Enlists x ids ts e') {id : TriggerId} (hid : id ∈ ids) :
    e'.shelf.contains id = true := by
  have hmem : e'.shelf.get? id ∈ ts.map some := h.shelf ▸ List.mem_map_of_mem hid
  obtain ⟨t, -, ht⟩ := List.mem_map.1 hmem
  exact Shelf.contains_of_get? ht.symm

/-- What is enlisted later is new, so it is something else. -/
theorem disjoint (h : e.Enlists x ids ts e') (h' : e'.Enlists x ids' ts' e'') {id : TriggerId}
    (hid : id ∈ ids) : id ∉ ids' := fun hid' => by
  have hin := h.contains hid
  rw [(h'.new id hid').1] at hin
  cases hin

theorem trans (h : e.Enlists x ids ts e') (h' : e'.Enlists x ids' ts' e'') :
    e.Enlists x (ids ++ ids') (ts ++ ts') e'' where
  new id hid := by
    rcases List.mem_append.1 hid with hid | hid
    · exact h.new id hid
    · have hout : id ∉ ids := fun hin => h.disjoint h' hin hid
      obtain ⟨hslot, hnot⟩ := h'.new id hid
      rw [Shelf.contains_eq, h.otherSlots id hout, ← Shelf.contains_eq] at hslot
      refine ⟨hslot, fun hm => hnot ?_⟩
      rcases hm with hm | hm | ⟨event, hm⟩
      · refine .inl ?_
        rwa [Roster.contains, Std.ExtTreeMap.contains_eq_isSome_getElem?, h.otherOrigins id hout,
          ← Std.ExtTreeMap.contains_eq_isSome_getElem?]
      · exact .inr (.inl (by rwa [h.otherOwners id hout]))
      · refine .inr (.inr ⟨event, ?_⟩)
        rw [h.heard]
        exact List.mem_append_left _ hm
  once := List.nodup_append'.2 ⟨h.once, h'.once, fun _ hid => h.disjoint h' hid⟩
  shelf := by
    have hold : ids.map e''.shelf.get? = ids.map e'.shelf.get? := List.map_congr_left
      fun id hid => by
        rw [Shelf.get?_eq, Shelf.get?_eq, h'.otherSlots id (h.disjoint h' hid)]
    rw [List.map_append, List.map_append, hold, h.shelf, h'.shelf]
  live := by
    have hold : ids.map (e''.roster.origins[·]?) = ids.map (e'.roster.origins[·]?) :=
      List.map_congr_left fun id hid => h'.otherOrigins id (h.disjoint h' hid)
    rw [List.map_append, List.map_append, hold, h.live, h'.live]
  owned id hid := by
    rcases List.mem_append.1 hid with hid | hid
    · rw [h'.otherOwners id (h.disjoint h' hid), h.owned id hid]
    · exact h'.owned id hid
  heard event := by
    rw [h'.heard, h.heard, List.append_assoc, List.zip_append h.length_eq, List.filter_append,
      List.map_append]
  otherSlots id hid := by
    rw [List.mem_append, not_or] at hid
    rw [h'.otherSlots id hid.2, h.otherSlots id hid.1]
  otherOrigins id hid := by
    rw [List.mem_append, not_or] at hid
    rw [h'.otherOrigins id hid.2, h.otherOrigins id hid.1]
  otherOwners id hid := by
    rw [List.mem_append, not_or] at hid
    rw [h'.otherOwners id hid.2, h.otherOwners id hid.1]

end Enlists

/-- The trigger as it is registered for an entity. -/
def sourced (record : Entity) (t : Trigger κ) : Trigger κ :=
  t.withSource (t.head.source.getD record.name)

/-- A trigger that is registered under an unused number meets nothing of that number. -/
theorem Unused.register_eq (hu : e.Unused) (hx : e.world.entity? x = some record)
    (t : Trigger κ) : e.register x t = .ok (⟨e.shelf.nextId⟩, { e with
      shelf := (e.shelf.insert (sourced record t)).2
      roster := e.roster.add ⟨e.shelf.nextId⟩ (sourced record t).head.source
      listeners := (e.listeners.subscribe t.event (.trigger ⟨e.shelf.nextId⟩)).2
      world := e.world.modifyEntity x (·.attach ⟨e.shelf.nextId⟩)
      owners := e.owners.insert ⟨e.shelf.nextId⟩ x }) := by
  have hget : (e.shelf.insert (sourced record t)).2.get? ⟨e.shelf.nextId⟩ =
      some (sourced record t) := Shelf.get?_insert
  have hfree : e.owners[(⟨e.shelf.nextId⟩ : TriggerId)]? = none := by
    rw [← Option.isNone_iff_eq_none, ← Option.isSome_eq_false_iff, ← Bool.not_eq_true]
    exact fun h => hu.tables ⟨e.shelf.nextId⟩ (UInt32.le_refl _) (.inr (.inl h))
  rw [register, hx]
  refine bind_eq_ok.2 ⟨_, attach_eq_ok.2 ⟨?_, ⟨record, hx⟩, rfl⟩, ?_⟩
  · exact Shelf.contains_of_get? hget
  · rw [activate_of_get? hget]
    simp only [handOver, hfree]
    rfl

/-- One new trigger. -/
theorem Unused.register (hu : e.Unused) (hx : e.world.entity? x = some record)
    (hlist : ∀ id ∈ record.triggers, id.raw < e.shelf.nextId) (t : Trigger κ) :
    ∃ e', e.register x t = .ok (⟨e.shelf.nextId⟩, e') ∧
      e.Enlists x [⟨e.shelf.nextId⟩] [sourced record t] e' ∧
      e.Lists x [⟨e.shelf.nextId⟩] e' ∧ e'.shelf.nextId = e.shelf.nextId + 1 := by
  have hnext := UInt32.le_refl e.shelf.nextId
  have hnew := hu.tables ⟨e.shelf.nextId⟩ hnext
  refine ⟨_, hu.register_eq hx t, ?_, fun y => ?_, rfl⟩
  refine ⟨?_, List.nodup_singleton _, ?_, ?_, ?_, fun event => ?_, ?_, ?_, ?_⟩
  · intro id hid
    obtain rfl := List.mem_singleton.1 hid
    exact ⟨hu.slots _ hnext, hnew⟩
  · simp [Shelf.get?_insert]
  · have hout : e.roster.contains ⟨e.shelf.nextId⟩ = false := by
      rw [← Bool.not_eq_true]
      exact fun hin => hnew (.inl hin)
    simp [Roster.add, hout]
  · intro id hid
    obtain rfl := List.mem_singleton.1 hid
    simp
  · have hout : .trigger ⟨e.shelf.nextId⟩ ∉ e.listeners.subscribers t.event := fun hin =>
      hnew (.inr (.inr ⟨t.event, hin⟩))
    have hevent : (sourced record t).event = t.event := rfl
    rw [Listeners.subscribers_subscribe]
    by_cases he : t.event = event
    · subst he
      simp [hout, hevent]
    · simp [he, hevent]
  · intro id hid
    rw [Shelf.slots_insert, if_neg fun he => hid (List.mem_singleton.2 he.symm)]
  · intro id hid
    unfold Roster.add
    split
    · rfl
    · simp only [Std.ExtTreeMap.getElem?_insert, Std.LawfulEqCmp.compare_eq_iff_eq]
      exact if_neg fun he => hid (List.mem_singleton.2 he.symm)
  · intro id hid
    simp only [Std.ExtTreeMap.getElem?_insert, Std.LawfulEqCmp.compare_eq_iff_eq]
    exact if_neg fun he => hid (List.mem_singleton.2 he.symm)
  · rw [World.entity?_modifyEntity]
    by_cases hy : x = y
    · subst hy
      have hout : (⟨e.shelf.nextId⟩ : TriggerId) ∉ record.triggers := fun hin =>
        absurd hnext (UInt32.not_le.2 (hlist _ hin))
      simp [hx, Entity.attach, hout]
    · simp [hy, Ne.symm hy]

/-- Several new triggers, as long as there are numbers for them. -/
theorem Unused.registerAll (ts : List (Trigger κ)) {e : Engine κ} {record : Entity} (hu : e.Unused)
    (hx : e.world.entity? x = some record)
    (hlist : ∀ id ∈ record.triggers, id.raw < e.shelf.nextId)
    (hfit : e.shelf.nextId.toNat + ts.length < UInt32.size) :
    ∃ ids e', e.registerAll x ts = .ok (ids, e') ∧
      e.Enlists x ids (ts.map (sourced record)) e' ∧ e.Lists x ids e' := by
  induction ts generalizing e record with
  | nil => exact ⟨[], e, rfl, .nil, .nil⟩
  | cons t rest ih =>
    obtain ⟨e₁, hr, h₁, hw₁, hnext⟩ := hu.register hx hlist t
    rw [List.length_cons] at hfit
    have hroom : e.shelf.nextId.toNat + 1 < UInt32.size := by omega
    have hnat : e₁.shelf.nextId.toNat = e.shelf.nextId.toNat + 1 := by
      rw [hnext, UInt32.toNat_add, UInt32.toNat_one, Nat.mod_eq_of_lt hroom]
    have hlt : e.shelf.nextId < e₁.shelf.nextId := by
      rw [UInt32.lt_iff_toNat_lt]
      omega
    -- what was unused still is, but for the number that was given
    have hu₁ : e₁.Unused := by
      refine ⟨fun id hid => ?_, fun id hid hm => ?_⟩
      · have hne : id ∉ [(⟨e.shelf.nextId⟩ : TriggerId)] := fun hin => by
          rw [List.mem_singleton.1 hin] at hid
          exact absurd hlt (UInt32.not_lt.2 hid)
        rw [Shelf.contains_eq, h₁.otherSlots id hne, ← Shelf.contains_eq]
        exact hu.slots id (UInt32.le_trans (UInt32.le_of_lt hlt) hid)
      · rcases mentions_register hr hm with hm | rfl
        · exact hu.tables id (UInt32.le_trans (UInt32.le_of_lt hlt) hid) hm
        · exact absurd hlt (UInt32.not_lt.2 hid)
    have hx₁ : e₁.world.entity? x =
        some { record with triggers := record.triggers ++ [⟨e.shelf.nextId⟩] } := by
      rw [hw₁, hx]
      simp
    obtain ⟨ids, e₂, hrest, h₂, hw₂⟩ := ih hu₁ hx₁ (fun id hid => by
      rcases List.mem_append.1 hid with hid | hid
      · exact UInt32.lt_trans (hlist id hid) hlt
      · exact List.mem_singleton.1 hid ▸ hlt) (by omega)
    refine ⟨⟨e.shelf.nextId⟩ :: ids, e₂, ?_, h₁.trans h₂, hw₁.trans hw₂⟩
    exact bind_eq_ok.2 ⟨_, hr, bind_eq_ok.2 ⟨_, hrest, rfl⟩⟩

end Engine

end Encounter
