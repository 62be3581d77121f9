import Encounter.Proofs.Coherence

/-!
# Slots, owners and lists

What is said of the shelf, the roster, the owners, the listeners and the lists of the entities is
kept by whatever happens in a session if the operations on single triggers keep it, and so do the
changes of entities and listeners that do not go through them (`Engine.Invariant.change`,
`Engine.Invariant.moves`). Such a change may be known to leave the lists of the entities to the
operations on triggers, or to subscribe no handler; what does not depend on that is kept anyway.

So it is with `Engine.Rostered`: a trigger is live if and only if it has a slot, and only such
triggers have owners and listen. `Engine.Listed` says that an entity has only triggers on its list
that it owns, `Engine.Unattended` that no handler listens; these need that the lists are left alone
(`Change.KeepsLists`) and that no handler is subscribed (`Change.SubscribesNobody`).
-/

set_option autoImplicit false

namespace Encounter

/-! ## Lists of entities -/

/-- An entity has the triggers on its list that it had before, or none. -/
def World.NoneGains (w w' : World) : Prop :=
  ∀ x record', w'.entity? x = some record' → record'.triggers = [] ∨
    ∃ record, w.entity? x = some record ∧ record.triggers = record'.triggers

namespace World.NoneGains

variable {w w' : World} {x : EntityId}

/-- An entity that comes without triggers, or one that leaves. -/
theorem of_update {o : Option Entity} (ho : ∀ record, o = some record → record.triggers = [])
    (hw : ∀ y, w'.entity? y = if x = y then o else w.entity? y) : w.NoneGains w' := by
  intro y record' hy
  rw [hw] at hy
  split at hy
  · exact .inl (ho record' hy)
  · exact .inr ⟨record', hy, rfl⟩

theorem spawn (name : String) (kind : EntityKind) : w.NoneGains (w.spawn name kind).2 :=
  of_update (by rintro _ ⟨⟩; rfl) fun _ => entity?_spawn name kind

theorem modifyEntity {f : Entity → Entity} (hf : ∀ record, (f record).triggers = record.triggers) :
    w.NoneGains (w.modifyEntity x f) := by
  intro y record' hy
  rw [World.entity?_modifyEntity] at hy
  split at hy
  · obtain ⟨record, hr, rfl⟩ := Option.map_eq_some_iff.1 hy
    exact .inr ⟨record, hr, (hf record).symm⟩
  · exact .inr ⟨record', hy, rfl⟩

end World.NoneGains

/-- Does the change leave the lists of the entities to the operations on triggers? -/
def Change.KeepsLists {κ α : Type} : Change κ α → Prop
  | .insert record => record.triggers = []
  | .edit _ f => ∀ record, (f record).triggers = record.triggers
  | _ => True

/-- The operations that leave the lists of the entities to the operations on triggers. -/
def Licence.keepsLists {κ σ : Type} : Licence κ σ
  | _, .change c => c.KeepsLists
  | _, _ => True

theorem Licence.keepsLists_of_permits {κ σ α : Type} {c : Change κ α}
    (h : (Licence.keepsLists (σ := σ)).Permits c) : c.KeepsLists := by
  cases h with
  | asked h => exact h
  | _ => trivial

/-! ## Listeners -/

/-- Nobody listens who did not do so before; if `quiet` is false, that goes for triggers only. -/
structure Listeners.NoneJoins {κ : Type} (quiet : Prop) (l l' : Listeners κ) : Prop where
  triggers : ∀ event id, .trigger id ∈ l'.subscribers event → .trigger id ∈ l.subscribers event
  handlers : quiet → ∀ event handler, .handler handler ∈ l'.subscribers event →
    .handler handler ∈ l.subscribers event

namespace Listeners.NoneJoins

variable {κ : Type} {quiet : Prop} {l l' : Listeners κ} {event : String} {s : Subscriber}

theorem of_subset (h : ∀ event s, s ∈ l'.subscribers event → s ∈ l.subscribers event) :
    NoneJoins quiet l l' :=
  ⟨fun event id => h event (.trigger id), fun _ event handler => h event (.handler handler)⟩

theorem unsubscribe : NoneJoins quiet l (l.unsubscribe event s) := of_subset fun other s' h => by
  rw [subscribers_unsubscribe] at h
  split at h
  · exact List.mem_of_mem_filter h
  · exact h

theorem removeHandler (handler : HandlerId) : NoneJoins quiet l (l.removeHandler handler) :=
  of_subset fun _ _ h => (mem_unsubscribeAll.1 h).2

theorem reset : NoneJoins quiet l l.reset := of_subset fun event s h => by simp at h

end Listeners.NoneJoins

/-- Does the change subscribe no handler? -/
def Change.SubscribesNobody {κ α : Type} : Change κ α → Prop
  | .subscribe .. => False
  | _ => True

/-- The operations that subscribe no handler. -/
def Licence.subscribesNobody {κ σ : Type} : Licence κ σ
  | _, .change c => c.SubscribesNobody
  | _, _ => True

theorem Licence.subscribesNobody_of_permits {κ σ α : Type} {c : Change κ α}
    (h : (Licence.subscribesNobody (σ := σ)).Permits c) : c.SubscribesNobody := by
  cases h with
  | asked h => exact h
  | _ => trivial

/-! ## What all operations keep -/

/-- Every operation on the tables keeps `P`. If `lists` is false, `P` does not depend on the lists
of the entities; if `quiet` is false, it does not depend on the handlers that listen. -/
structure Engine.Invariant {κ : Type} (lists quiet : Prop) (P : Engine κ → Prop) : Prop where
  same : ∀ {e e' : Engine κ}, P e → e.SameTables e' → P e'
  world : ∀ {e : Engine κ} {world : World}, P e → (lists → e.world.NoneGains world) →
    P { e with world }
  listeners : ∀ {e : Engine κ} {listeners : Listeners κ}, P e →
    e.listeners.NoneJoins quiet listeners → P { e with listeners }
  /-- What is in the slots plays no part. -/
  shelf : ∀ {e : Engine κ} {shelf : Shelf κ}, P e →
    (∀ id, shelf.contains id = e.shelf.contains id) → P { e with shelf }
  registerGlobal : ∀ {e : Engine κ} (t : Trigger κ), P e → P (e.registerGlobal t).2
  attach : ∀ {e e' : Engine κ} {x : EntityId} {id : TriggerId}, P e → e.attach x id = .ok e' → P e'
  removeTrigger : ∀ {e e' : Engine κ} {id : TriggerId} {answer : Option (Trigger κ)}, P e →
    e.removeTrigger id = .ok (answer, e') → P e'

namespace Engine.Invariant

variable {κ σ α : Type} {lists quiet : Prop} {P : Engine κ → Prop} {e e' : Engine κ} {x : EntityId}

theorem register {t : Trigger κ} {id : TriggerId} (hP : Invariant lists quiet P) (h : P e)
    (hr : e.register x t = .ok (id, e')) : P e' := by
  obtain ⟨t', -, -, ha⟩ := register_eq_ok hr
  exact hP.attach (hP.registerGlobal t' h) ha

theorem registerAll {triggers : List (Trigger κ)} {ids : List TriggerId}
    (hP : Invariant lists quiet P) (h : P e) (hr : e.registerAll x triggers = .ok (ids, e')) :
    P e' := by
  induction triggers generalizing e ids with
  | nil =>
    cases hr
    exact h
  | cons t rest ih =>
    obtain ⟨id, e₁, ids', h₁, h₂, rfl⟩ := registerAll_cons_eq_ok hr
    exact ih (hP.register h h₁) h₂

theorem removeTriggers (hP : Invariant lists quiet P) (h : P e) (ids : List TriggerId) :
    P (e.removeTriggers ids) :=
  removeTriggers_keeps (fun _ _ _ _ h hr => hP.removeTrigger h hr) ids e h

theorem change (hP : Invariant lists quiet P) (h : P e) (c : Change κ α)
    (hk : lists → c.KeepsLists) (hq : quiet → c.SubscribesNobody) : P (c.apply e).2 := by
  have hrefuse : ∀ {β : Type} {r : Except Failure (β × Engine κ)},
      (∀ b e', r = .ok (b, e') → P e') → P (e.orRefuse r).2 := fun hr => orRefuse_cases h hr
  have hworld : ∀ {β : Type} {r : Except Failure (β × World)},
      (∀ b world, r = .ok (b, world) → P { e with world }) → P (e.onWorldOrRefuse r).2 :=
    fun hr => onWorldOrRefuse_cases h hr
  cases c with
  | spawn name kind => exact hP.world h fun _ => .spawn name kind
  | insert record =>
    refine hworld fun x world hw => hP.world h fun hl => ?_
    exact .of_update (by rintro _ ⟨⟩; exact hk hl) (World.insert_eq_ok hw).2.2
  | edit x f => exact hP.world h fun hl => .modifyEntity (hk hl)
  | damage x amount => exact hP.same h (sameTables_modifyEntity fun _ => rfl)
  | place x p =>
    refine hworld fun _ world hw => hP.same h ⟨rfl, rfl, rfl, rfl, ?_⟩
    obtain ⟨w, hw, he⟩ := map_eq_ok.1 hw
    cases he
    exact World.place_triggers hw
  | move x p =>
    exact hworld fun moved world hw => hP.same h ⟨rfl, rfl, rfl, rfl, World.move_triggers hw⟩
  | removeEntity x =>
    refine hrefuse fun removed e' hr => ?_
    obtain ⟨world, hw, rfl⟩ := removeEntity_eq_ok hr
    have hleft := hP.world (hP.removeTriggers h (e.triggersOf x)) fun _ =>
      .of_update (by rintro _ ⟨⟩) (World.remove?_eq_some hw).2
    exact hP.same hleft (.of_world rfl rfl rfl rfl rfl)
  | register x t => exact hrefuse fun _ _ hr => hP.register h hr
  | registerGlobal t => exact hP.registerGlobal t h
  | attach x id =>
    refine hrefuse fun _ e' hr => ?_
    obtain ⟨e₁, ha, he⟩ := map_eq_ok.1 hr
    cases he
    exact hP.attach h ha
  | removeTrigger id => exact hrefuse fun _ _ hr => hP.removeTrigger h hr
  | editTrigger id f => exact hP.shelf h fun _ => Shelf.contains_modify f
  | addPresets x =>
    refine hrefuse fun ids e' hr => ?_
    obtain ⟨_, -, hall⟩ := addPresets_eq_ok hr
    exact hP.registerAll h hall
  | load record =>
    refine hrefuse fun x e' hr => ?_
    obtain ⟨⟨⟨x, ids⟩, e₁⟩, hl, he⟩ := map_eq_ok.1 hr
    cases he
    obtain ⟨name, kind, stats, triggers, -, rfl, hall⟩ := load_eq_ok hl
    have hspawn := hP.world h fun _ => .spawn name kind
    have hstats := hP.same hspawn (sameTables_modifyEntity
      (x := (e.world.spawn name kind).1) (f := fun r => { r with stats }) fun _ => rfl)
    exact hP.registerAll hstats hall
  | resetEvents => exact hP.listeners (hP.removeTriggers h e.roster.toList) .reset
  | addHandler => exact hP.listeners h (.of_subset fun _ _ h => h)
  | removeHandler handler => exact hP.listeners h (.removeHandler handler)
  | subscribe event handler =>
    exact hP.listeners h
      ⟨fun _ _ => Listeners.trigger_mem_subscribe.1, fun hquiet => (hq hquiet).elim⟩
  | unsubscribe => exact hP.listeners h .unsubscribe
  | dequeue => exact hP.same h (sameTables_dequeue e)
  | addConditionType | addReactionType | nameCondition | nameReaction =>
    refine hrefuse fun _ e' hr => ?_
    obtain ⟨_, -, he⟩ := map_eq_ok.1 hr
    cases he
    exact hP.same h (.of_world rfl rfl rfl rfl rfl)
  | _ => exact hP.same h ⟨rfl, rfl, rfl, rfl, fun _ => rfl⟩

theorem move {allowed : Licence κ σ} {s s' : Session κ σ} (hP : Invariant lists quiet P)
    (hk : lists → ∀ {β : Type} {c : Change κ β}, allowed.Permits c → c.KeepsLists)
    (hq : quiet → ∀ {β : Type} {c : Change κ β}, allowed.Permits c → c.SubscribesNobody)
    (hm : Move allowed s s') (h : P s.engine) : P s'.engine := by
  obtain ⟨ns, -, hkind⟩ := hm.exists_kind
  cases hkind with
  | quiet ns he => exact hP.same h he
  | change c hc => exact hP.change h c (fun hlists => hk hlists hc) fun hquiet => hq hquiet hc
  | checkOut hget => exact hP.shelf h fun _ => Shelf.contains_checkOut hget
  | checkIn => exact hP.shelf h fun _ => Shelf.contains_checkIn
  | handle => exact h

theorem moves {allowed : Licence κ σ} {s s' : Session κ σ} (hP : Invariant lists quiet P)
    (hk : lists → ∀ {β : Type} {c : Change κ β}, allowed.Permits c → c.KeepsLists)
    (hq : quiet → ∀ {β : Type} {c : Change κ β}, allowed.Permits c → c.SubscribesNobody)
    (hm : Moves allowed s s') (h : P s.engine) : P s'.engine :=
  hm.keep (P := fun s => P s.engine) (fun _ _ hm h => hP.move hk hq hm h) h

end Engine.Invariant

/-! ## Slots and owners -/

namespace Engine

variable {κ : Type} {e : Engine κ}

/-- A trigger is live if and only if it has a slot, and only such triggers have owners and
listen. -/
structure Rostered (e : Engine κ) : Prop where
  live : ∀ id, e.roster.contains id = e.shelf.contains id
  owned : ∀ id x, e.owners[id]? = some x → e.shelf.contains id = true
  heard : ∀ id event, .trigger id ∈ e.listeners.subscribers event → e.shelf.contains id = true

theorem Rostered.new (world : WorldId) (settings : Settings) :
    (Engine.new (κ := κ) world settings).Rostered where
  live id := by
    simp [Engine.new, Roster.empty, Roster.contains, Shelf.contains_eq, Shelf.slots_new]
  owned id x h := by simp [Engine.new] at h
  heard id event h := by simp [Engine.new] at h

/-- A trigger that is made live has a slot, or else nothing happens. -/
theorem Rostered.activate (h : e.Rostered) (id : TriggerId) : (e.activate id).Rostered := by
  cases hget : e.shelf.get? id with
  | none =>
    rw [activate_of_none hget]
    exact h
  | some t =>
    have hslot := Shelf.contains_of_get? hget
    rw [activate_of_get? hget]
    refine ⟨fun i => ?_, h.owned, fun i event hi => ?_⟩
    · rw [Bool.eq_iff_iff, contains_add_iff, h.live]
      refine ⟨?_, .inr⟩
      rintro (rfl | hi)
      · exact hslot
      · exact hi
    · rcases Listeners.mem_subscribe.1 hi with ⟨-, he⟩ | hi
      · exact Subscriber.trigger.inj he ▸ hslot
      · exact h.heard i event hi

theorem rostered_invariant : Invariant False False (Rostered (κ := κ)) where
  same {e e'} h hs := by
    refine ⟨fun id => ?_, fun id x hx => ?_, fun id event hid => ?_⟩
    · rw [hs.roster, hs.shelf, h.live]
    · rw [hs.owners] at hx
      exact hs.shelf ▸ h.owned id x hx
    · rw [hs.listeners] at hid
      exact hs.shelf ▸ h.heard id event hid
  world h _ := ⟨h.live, h.owned, h.heard⟩
  listeners h hl :=
    ⟨h.live, h.owned, fun id event hid => h.heard id event (hl.triggers event id hid)⟩
  shelf h hs := ⟨fun id => (h.live id).trans (hs id).symm, fun id x hx =>
    (hs id).trans (h.owned id x hx), fun id event hid => (hs id).trans (h.heard id event hid)⟩
  registerGlobal {e} t h := by
    have hslot : ∀ i, (e.shelf.insert t).2.contains i = true ↔
        i = ⟨e.shelf.nextId⟩ ∨ e.shelf.contains i = true := fun i => by
      rw [Shelf.contains_eq, Shelf.contains_eq, Shelf.slots_insert]
      by_cases hi : (⟨e.shelf.nextId⟩ : TriggerId) = i
      · simp [hi]
      · simp [hi, Ne.symm hi]
    rw [registerGlobal_eq, activate_of_get? Shelf.get?_insert]
    refine ⟨fun i => ?_, fun i x hi => (hslot i).2 (.inr (h.owned i x hi)), fun i event hi => ?_⟩
    · rw [Bool.eq_iff_iff, contains_add_iff, h.live, hslot]
    · rcases Listeners.mem_subscribe.1 hi with ⟨-, he⟩ | hi
      · exact (hslot i).2 (.inl (Subscriber.trigger.inj he))
      · exact (hslot i).2 (.inr (h.heard i event hi))
  attach {e e' x id} h ha := by
    obtain ⟨hid, -, rfl⟩ := attach_eq_ok.1 ha
    refine Rostered.activate
      (e := { e with world := e.handOver x id, owners := e.owners.insert id x })
      ⟨h.live, fun i y hi => ?_, h.heard⟩ id
    simp only [Std.ExtTreeMap.getElem?_insert, Std.LawfulEqCmp.compare_eq_iff_eq] at hi
    split at hi
    · rename_i he
      exact he ▸ hid
    · exact h.owned i y hi
  removeTrigger {e e' id answer} h hr := by
    obtain ⟨-, -, rfl⟩ := removeTrigger_eq_ok.1 hr
    refine ⟨fun i => ?_, fun i x hi => ?_, fun i event hi => ?_⟩
    · rw [Bool.eq_iff_iff, Shelf.contains_remove, ← h.live]
      simp [Roster.contains, Roster.remove]
    · simp only [Std.ExtTreeMap.getElem?_erase, Std.LawfulEqCmp.compare_eq_iff_eq] at hi
      split at hi
      · cases hi
      · rename_i hne
        exact Shelf.contains_remove.2 ⟨hne, h.owned i x hi⟩
    · obtain ⟨hne, hi⟩ := Listeners.mem_unsubscribeAll.1 hi
      exact Shelf.contains_remove.2 ⟨fun he => hne (congrArg _ he.symm), h.heard i event hi⟩

/-! ## Lists and owners -/

/-- Entities have only triggers on their lists that they own. -/
def Listed (e : Engine κ) : Prop :=
  ∀ x record, e.world.entity? x = some record → ∀ id ∈ record.triggers, e.owners[id]? = some x

theorem Listed.new (world : WorldId) (settings : Settings) :
    (Engine.new (κ := κ) world settings).Listed := fun x record h => by
  simp [Engine.new, World.new, World.entity?] at h

theorem listed_invariant : Invariant True False (Listed (κ := κ)) where
  same {e e'} h hs x record' hx id hid := by
    have htriggers := hs.triggers x
    rw [hx] at htriggers
    obtain ⟨record, hr, he⟩ := Option.map_eq_some_iff.1 htriggers.symm
    rw [hs.owners]
    exact h x record hr id (he ▸ hid)
  world h hgains x record' hx id hid := by
    rcases hgains trivial x record' hx with hnil | ⟨record, hr, he⟩
    · rw [hnil] at hid
      cases hid
    · exact h x record hr id (he ▸ hid)
  listeners h _ := h
  shelf h _ := h
  registerGlobal t h := by
    rw [registerGlobal_eq, Listed, activate_world, activate_owners]
    exact h
  attach {e e' x id} h ha := by
    obtain ⟨-, -, rfl⟩ := attach_eq_ok.1 ha
    intro y record' hy i hi
    rw [activate_world, entity?_handOver] at hy
    rw [activate_owners]
    obtain ⟨record, hr, rfl⟩ := Option.map_eq_some_iff.1 hy
    simp only [Std.ExtTreeMap.getElem?_insert, Std.LawfulEqCmp.compare_eq_iff_eq]
    have hown := h y record hr i
    by_cases hid : id = i
    · -- it is on the list of its new owner now, and on no other
      subst hid
      rw [if_pos rfl]
      by_cases hy : y = x
      · rw [hy]
      · rw [if_neg hy] at hi
        split at hi
        · exact absurd rfl (Entity.mem_detach.1 hi).1
        · rename_i hother
          exact absurd (hown hi) hother
    · rw [if_neg hid]
      refine hown ?_
      split at hi
      · exact (Entity.mem_attach.1 hi).resolve_left (Ne.symm hid)
      · split at hi
        · exact (Entity.mem_detach.1 hi).2
        · exact hi
  removeTrigger {e e' id answer} h hr := by
    obtain ⟨-, -, rfl⟩ := removeTrigger_eq_ok.1 hr
    intro y record' hy i hi
    rw [entity?_detach] at hy
    obtain ⟨record, hrec, rfl⟩ := Option.map_eq_some_iff.1 hy
    simp only [Std.ExtTreeMap.getElem?_erase, Std.LawfulEqCmp.compare_eq_iff_eq]
    have hown := h y record hrec i
    split at hi
    · obtain ⟨hne, hi⟩ := Entity.mem_detach.1 hi
      rw [if_neg (Ne.symm hne)]
      exact hown hi
    · rename_i hother
      rw [if_neg fun he : id = i => hother (he ▸ hown hi)]
      exact hown hi

/-! ## Handlers -/

/-- No handler listens to anything. -/
def Unattended (e : Engine κ) : Prop :=
  ∀ event handler, .handler handler ∉ e.listeners.subscribers event

theorem Unattended.activate (h : e.Unattended) (id : TriggerId) : (e.activate id).Unattended := by
  unfold Engine.activate
  split
  · exact h
  · intro event handler hin
    rcases Listeners.mem_subscribe.1 hin with ⟨-, he⟩ | hin
    · cases he
    · exact h event handler hin

theorem unattended_invariant : Invariant False True (Unattended (κ := κ)) where
  same h hs := by
    rw [Unattended, hs.listeners]
    exact h
  world h _ := h
  listeners h hl event handler hin := h event handler (hl.handlers trivial event handler hin)
  shelf h _ := h
  registerGlobal {e} t h := Unattended.activate (e := { e with shelf := (e.shelf.insert t).2 }) h _
  attach {e e' x id} h ha := by
    obtain ⟨-, -, rfl⟩ := attach_eq_ok.1 ha
    exact Unattended.activate
      (e := { e with world := e.handOver x id, owners := e.owners.insert id x }) h id
  removeTrigger h hr event handler hin := by
    obtain ⟨-, -, rfl⟩ := removeTrigger_eq_ok.1 hr
    exact h event handler (Listeners.mem_unsubscribeAll.1 hin).2

end Engine

/-! ## In a run -/

namespace Session

variable {κ σ : Type} {allowed : Licence κ σ} {s s' : Session κ σ}

theorem rostered_of_moves (hm : Moves allowed s s') (h : s.engine.Rostered) : s'.engine.Rostered :=
  Engine.rostered_invariant.moves False.elim False.elim hm h

theorem listed_of_moves (hm : Moves .keepsLists s s') (h : s.engine.Listed) : s'.engine.Listed :=
  Engine.listed_invariant.moves (fun _ _ _ hc => Licence.keepsLists_of_permits hc) False.elim hm h

end Session

end Encounter
