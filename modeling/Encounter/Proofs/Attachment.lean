import Encounter.Proofs.Arrival
import Encounter.Proofs.Holdings
import Encounter.Proofs.Lifecycle

/-!
# Who was given which trigger

The list of an entity grows at its end only, so it holds its triggers in the order in which they
were last given to it (`World.Attachments.listed_eq`). A trigger that belongs to an entity can be
handed over or removed, but it cannot lose its owner otherwise (`Session.Kept.move`): a trigger that
is there and belongs to nobody never belonged to anybody.
-/

set_option autoImplicit false

namespace Encounter

/-! ## The order of attachment -/

namespace World

variable {start w w' : World} {log : List (EntityId × TriggerId)} {x y : EntityId}
  {id : TriggerId} {record : Entity}

/-- The triggers on the list of an entity. -/
def listed (w : World) (x : EntityId) : List TriggerId :=
  ((w.entity? x).map (·.triggers)).getD []

theorem listed_eq (h : w.entity? x = some record) : w.listed x = record.triggers := by
  rw [listed, h]
  rfl

/-- What led from one world to another, with the triggers that were given to entities that did not
have them, the latest last. -/
inductive Attachments (start : World) : List (EntityId × TriggerId) → World → Prop
  | nil : Attachments start [] start
  | attach {log : List (EntityId × TriggerId)} {w : World} {x : EntityId} {id : TriggerId}
      {record : Entity} (hw : Attachments start log w) (hx : w.entity? x = some record)
      (hid : id ∉ record.triggers) :
      Attachments start (log ++ [(x, id)]) (w.modifyEntity x (·.attach id))
  /-- Something by which nobody gets a trigger, though some may lose theirs. -/
  | other {log : List (EntityId × TriggerId)} {w w' : World} (hw : Attachments start log w)
      (h : ∀ x, (w'.listed x).Sublist (w.listed x)) : Attachments start log w'

/-- Whatever led to the first world, it goes on to the second. -/
def Attaching (w w' : World) : Prop :=
  ∀ start log, Attachments start log w → ∃ log', Attachments start log' w'

theorem Attaching.refl (w : World) : w.Attaching w := fun _ log h => ⟨log, h⟩

theorem Attaching.trans {w₁ w₂ w₃ : World} (h : w₁.Attaching w₂) (h' : w₂.Attaching w₃) :
    w₁.Attaching w₃ := fun start log hlog => by
  obtain ⟨log', hlog'⟩ := h start log hlog
  exact h' start log' hlog'

theorem Attaching.of_sublist (h : ∀ x, (w'.listed x).Sublist (w.listed x)) : w.Attaching w' :=
  fun _ log hlog => ⟨log, hlog.other h⟩

theorem listed_modifyEntity {f : Entity → Entity} : (w.modifyEntity x f).listed y =
    if x = y then ((w.entity? y).map fun r => (f r).triggers).getD [] else w.listed y := by
  rw [listed, entity?_modifyEntity]
  split
  · rw [Option.map_map]
    rfl
  · rfl

/-- Nobody's list changes. -/
theorem Attaching.of_triggers
    (h : ∀ y, (w'.entity? y).map (·.triggers) = (w.entity? y).map (·.triggers)) :
    w.Attaching w' :=
  .of_sublist fun y => by rw [listed, h, listed]

theorem Attaching.of_relist (h : Relist w w') : w.Attaching w' := by
  cases h with
  | attach x id =>
    -- only a trigger that is new to the list makes an entry in the log
    by_cases hnew : ∃ record, w.entity? x = some record ∧ id ∉ record.triggers
    · obtain ⟨record, hx, hid⟩ := hnew
      exact fun start log hlog => ⟨_, hlog.attach hx hid⟩
    · refine .of_triggers fun y => ?_
      rw [entity?_modifyEntity]
      split
      · rename_i hxy
        subst hxy
        cases hx : w.entity? x with
        | none => rfl
        | some record =>
          have hid : id ∈ record.triggers :=
            Classical.byContradiction fun hid => hnew ⟨record, hx, hid⟩
          simp [Entity.attach, hid]
      · rfl
  | detach x id =>
    refine .of_sublist fun y => ?_
    rw [listed_modifyEntity]
    split
    · rename_i hxy
      subst hxy
      cases hx : w.entity? x with
      | none => exact List.nil_sublist _
      | some record =>
        rw [listed_eq hx]
        exact List.filter_sublist
    · exact .refl _

theorem Relists.attaching (h : Relists w w') : w.Attaching w' := by
  induction h with
  | refl => exact .refl w
  | tail _ hr ih => exact ih.trans (.of_relist hr)

/-- Lists are in the order of the last attachments. -/
theorem Attachments.sublist (h : Attachments start log w) (hnew : ∀ x, start.listed x = []) :
    (w.listed x).Sublist ((log.filter (·.1 = x)).map (·.2)).dedup := by
  induction h with
  | nil =>
    rw [hnew]
    exact List.nil_sublist _
  | @attach log w y id record _ hy hid ih =>
    rw [listed_modifyEntity, List.filter_append, List.map_append]
    split
    · rename_i hxy
      subst hxy
      rw [listed_eq hy] at ih
      have hbehind := (sublist_concat ih hid).2
      simpa [hy, Entity.attach, hid] using hbehind
    · rename_i hxy
      simpa [hxy] using ih
  | other _ h ih => exact (h x).trans ih

/-- An entity has its triggers in the order in which they were last given to it. -/
theorem Attachments.listed_eq (h : Attachments start log w) (hnew : ∀ x, start.listed x = [])
    (hx : w.entity? x = some record) : record.triggers =
      ((log.filter (·.1 = x)).map (·.2)).dedup.filter (· ∈ record.triggers) := by
  have hlist := h.sublist (x := x) hnew
  rw [World.listed_eq hx] at hlist
  exact eq_filter_dedup hlist fun _ => decide_eq_true_iff.symm

theorem Attaching.spawn (w : World) (name : String) (kind : EntityKind) :
    w.Attaching (w.spawn name kind).2 := by
  refine .of_sublist fun y => ?_
  rw [listed, entity?_spawn]
  split
  · exact List.nil_sublist _
  · exact .refl _

theorem Attaching.insert (h : w.insert record = .ok (x, w')) (hr : record.triggers = []) :
    w.Attaching w' := by
  obtain ⟨-, -, hget⟩ := insert_eq_ok h
  refine .of_sublist fun y => ?_
  rw [listed, hget]
  split
  · simp [hr]
  · exact .refl _

theorem Attaching.remove (h : w.remove? x = some (record, w')) : w.Attaching w' := by
  obtain ⟨-, hget⟩ := remove?_eq_some h
  refine .of_sublist fun y => ?_
  rw [listed, hget]
  split
  · exact List.nil_sublist _
  · exact .refl _

theorem Attaching.edit {f : Entity → Entity} (hf : ∀ r, (f r).triggers = r.triggers) :
    w.Attaching (w.modifyEntity x f) := by
  refine .of_triggers fun y => ?_
  rw [entity?_modifyEntity]
  split
  · cases w.entity? y with
    | none => rfl
    | some r => exact congrArg some (hf r)
  · rfl

end World

theorem Change.KeepsTables.keepsLists {κ α : Type} {c : Change κ α} (h : c.KeepsTables) :
    c.KeepsLists := by
  cases c with
  | insert | edit => exact h
  | _ => trivial

open Engine World in
/-- Whatever a change does to the lists, they stay in the order of attachment. -/
theorem Change.attaching {κ α : Type} (c : Change κ α) (e : Engine κ) (hk : c.KeepsLists) :
    e.world.Attaching (c.apply e).2.world := by
  have hrefuse : ∀ {β : Type} {r : Except Failure (β × Engine κ)},
      (∀ b e', r = .ok (b, e') → e.world.Attaching e'.world) →
        e.world.Attaching (e.orRefuse r).2.world := fun hr =>
    orRefuse_cases (P := fun e' => e.world.Attaching e'.world) (.refl _) hr
  have hworld : ∀ {β : Type} {r : Except Failure (β × World)},
      (∀ b world, r = .ok (b, world) → e.world.Attaching world) →
        e.world.Attaching (e.onWorldOrRefuse r).2.world := fun hr =>
    onWorldOrRefuse_cases (P := fun e' => e.world.Attaching e'.world) (.refl _) hr
  cases c with
  | spawn name kind => exact .spawn e.world name kind
  | insert record => exact hworld fun x world h => .insert h hk
  | edit x f => exact .edit hk
  | damage x amount => exact .edit fun _ => rfl
  | place x p =>
    refine hworld fun _ world h => ?_
    obtain ⟨w, hw, he⟩ := map_eq_ok.1 h
    cases he
    exact .of_triggers (place_triggers hw)
  | move x p => exact hworld fun moved world h => .of_triggers (move_triggers h)
  | removeEntity x =>
    refine hrefuse fun removed e' h => ?_
    obtain ⟨world, hw, rfl⟩ := removeEntity_eq_ok h
    exact (removeTriggers_relists _).attaching.trans (.remove hw)
  | register x t => exact hrefuse fun _ _ h => (register_relists h).attaching
  | registerGlobal t =>
    show e.world.Attaching (e.registerGlobal t).2.world
    rw [registerGlobal_world]
    exact .refl _
  | attach x id =>
    refine hrefuse fun _ e' h => ?_
    obtain ⟨e₁, ha, he⟩ := map_eq_ok.1 h
    cases he
    exact (attach_relists ha).attaching
  | removeTrigger id => exact hrefuse fun _ _ h => (removeTrigger_relists h).attaching
  | addPresets x =>
    refine hrefuse fun ids e' h => ?_
    obtain ⟨_, -, hall⟩ := addPresets_eq_ok h
    exact (registerAll_relists hall).attaching
  | load record =>
    refine hrefuse fun x e' h => ?_
    obtain ⟨⟨⟨x, ids⟩, e₁⟩, hl, he⟩ := map_eq_ok.1 h
    cases he
    obtain ⟨name, kind, stats, triggers, -, rfl, hall⟩ := load_eq_ok hl
    have hspawn := Attaching.spawn e.world name kind
    have hstats := hspawn.trans (.edit (x := (e.world.spawn name kind).1)
      (f := fun r => { r with stats }) fun _ => rfl)
    exact hstats.trans (registerAll_relists hall).attaching
  | resetEvents => exact (removeTriggers_relists _).attaching
  | dequeue =>
    simp only [apply, Engine.dequeue]
    split <;> exact .refl _
  | addConditionType | addReactionType | nameCondition | nameReaction =>
    refine hrefuse fun _ e' h => ?_
    obtain ⟨_, -, he⟩ := map_eq_ok.1 h
    cases he
    exact .refl _
  | allocate | addTag | removeTag | editTile => exact .of_triggers fun _ => rfl
  | _ => exact .refl _

/-! ## Owners -/

namespace Engine

variable {κ : Type} {e e' : Engine κ} {x : EntityId} {i id : TriggerId}

/-- A trigger belongs to somebody, if it is there. -/
def Kept (e : Engine κ) (id : TriggerId) : Prop :=
  e.shelf.contains id = true → ∃ x, e.owners[id]? = some x

namespace Kept

theorem attach (h : e.Kept id) (ha : e.attach x i = .ok e') : e'.Kept id := by
  obtain ⟨-, -, rfl⟩ := attach_eq_ok.1 ha
  unfold Kept
  rw [activate_shelf, activate_owners]
  intro hin
  simp only [Std.ExtTreeMap.getElem?_insert]
  split
  · exact ⟨x, rfl⟩
  · exact h hin

theorem registerGlobal (h : e.Kept id) (t : Trigger κ) (hne : id ≠ ⟨e.shelf.nextId⟩) :
    (e.registerGlobal t).2.Kept id := by
  unfold Kept
  rw [registerGlobal_shelf, Shelf.contains_eq, Shelf.slots_insert, if_neg (Ne.symm hne),
    ← Shelf.contains_eq, registerGlobal_eq, activate_owners]
  exact h

theorem register {t : Trigger κ} (h : e.Kept id) (hr : e.register x t = .ok (i, e'))
    (hne : id ≠ i) : e'.Kept id := by
  obtain ⟨t', -, rfl, ha⟩ := register_eq_ok hr
  exact (h.registerGlobal t' hne).attach ha

theorem registerAll {triggers : List (Trigger κ)} {ids : List TriggerId} (h : e.Kept id)
    (hr : e.registerAll x triggers = .ok (ids, e')) (hid : id ∉ ids) : e'.Kept id := by
  induction triggers generalizing e ids with
  | nil =>
    cases hr
    exact h
  | cons t rest ih =>
    obtain ⟨i, e₁, ids', h₁, h₂, rfl⟩ := registerAll_cons_eq_ok hr
    rw [List.mem_cons, not_or] at hid
    exact ih (h.register h₁ hid.1) h₂ hid.2

theorem removeTrigger {answer : Option (Trigger κ)} (h : e.Kept id)
    (hr : e.removeTrigger i = .ok (answer, e')) : e'.Kept id := by
  obtain ⟨-, -, rfl⟩ := removeTrigger_eq_ok.1 hr
  intro hin
  simp only [Shelf.contains_eq, Shelf.slots_remove] at hin
  simp only [Std.ExtTreeMap.getElem?_erase, Std.LawfulEqCmp.compare_eq_iff_eq]
  split at hin
  · cases hin
  · rename_i hne
    rw [if_neg hne]
    exact h ((Shelf.contains_eq ..).trans hin)

theorem removeTriggers (h : e.Kept id) (ids : List TriggerId) : (e.removeTriggers ids).Kept id :=
  removeTriggers_keeps (P := fun e => e.Kept id) (fun _ _ _ _ h hr => h.removeTrigger hr) ids e h

end Kept

end Engine

open Engine in
/-- What belongs to somebody keeps an owner through every change that does not store it anew. -/
theorem Change.kept {κ α : Type} {id : TriggerId} (c : Change κ α) {e : Engine κ} (h : e.Kept id)
    (hid : id ∉ c.stored e) : (c.apply e).2.Kept id := by
  have hrefuse : ∀ {β : Type} {r : Except Failure (β × Engine κ)},
      (∀ b e', r = .ok (b, e') → e'.Kept id) → (e.orRefuse r).2.Kept id := fun hr =>
    orRefuse_cases (P := fun e' => e'.Kept id) h hr
  cases c with
  | insert | place | move =>
    exact onWorldOrRefuse_cases (P := fun e' : Engine κ => e'.Kept id) h fun _ _ _ => h
  | removeEntity x =>
    refine hrefuse fun removed e' hr => ?_
    obtain ⟨world, -, rfl⟩ := removeEntity_eq_ok hr
    exact h.removeTriggers _
  | register x t =>
    refine hrefuse fun i e' hr => h.register hr ?_
    simpa [Change.stored_register hr] using hid
  | registerGlobal t => exact h.registerGlobal t (List.ne_of_not_mem_cons hid)
  | attach x i =>
    refine hrefuse fun _ e' hr => ?_
    obtain ⟨e₁, ha, he⟩ := map_eq_ok.1 hr
    cases he
    exact h.attach ha
  | removeTrigger i => exact hrefuse fun _ _ hr => h.removeTrigger hr
  | editTrigger i f =>
    show Kept { e with shelf := e.shelf.modify i f } id
    intro hin
    simp only [Shelf.contains_eq, Shelf.slots_modify] at hin
    refine h ?_
    rw [Shelf.contains_eq]
    split at hin
    · simpa using hin
    · exact hin
  | addPresets x =>
    refine hrefuse fun ids e' hr => ?_
    obtain ⟨_, -, hall⟩ := addPresets_eq_ok hr
    exact h.registerAll hall (Change.stored_addPresets hr ▸ hid)
  | load record =>
    refine hrefuse fun x e' hr => ?_
    obtain ⟨⟨⟨x, ids⟩, e₁⟩, hl, he⟩ := map_eq_ok.1 hr
    cases he
    obtain ⟨name, kind, stats, triggers, -, -, hall⟩ := load_eq_ok hl
    -- the newcomer has no triggers yet, so owners and shelf are as they were
    have hborn : Kept { e with
        world := (e.world.spawn name kind).2.modifyEntity x fun r => { r with stats } } id := h
    exact hborn.registerAll hall (Change.stored_load hl ▸ hid)
  | resetEvents => exact h.removeTriggers _
  | dequeue =>
    simp only [apply, Engine.dequeue]
    split <;> exact h
  | addConditionType | addReactionType | nameCondition | nameReaction =>
    refine hrefuse fun _ e' hr => ?_
    obtain ⟨_, -, he⟩ := map_eq_ok.1 hr
    cases he
    exact h
  | _ => exact h

namespace Session

variable {κ σ : Type} {allowed : Licence κ σ} {s s' : Session κ σ} {id : TriggerId}

theorem attaching_of_move (hk : ∀ {α : Type} {c : Change κ α}, allowed.Permits c → c.KeepsLists)
    (hm : Move allowed s s') : s.engine.world.Attaching s'.engine.world := by
  obtain ⟨ns, -, hkind⟩ := hm.exists_kind
  cases hkind with
  | quiet ns he => exact .of_triggers he.triggers
  | change c hc => exact c.attaching s.engine (hk hc)
  | _ => exact .refl _

/-- The lists of the entities in a run have an order of attachment. -/
theorem attaching (hk : ∀ {α : Type} {c : Change κ α}, allowed.Permits c → c.KeepsLists)
    (hm : Moves allowed s s') : s.engine.world.Attaching s'.engine.world :=
  hm.keep (P := fun s' => s.engine.world.Attaching s'.engine.world)
    (fun _ _ hmove hs => hs.trans (attaching_of_move hk hmove)) (.refl _)

/-- The trigger is known, and it belongs to somebody if it is there. -/
structure Kept (s : Session κ σ) (id : TriggerId) : Prop where
  stored : id ∈ Journal.storedTriggers s.journal
  kept : s.engine.Kept id

theorem Kept.move (hm : Move allowed s s') (hn : s.Numbered) (h : s.Kept id) : s'.Kept id := by
  obtain ⟨ns, hj, hkind⟩ := hm.exists_kind
  refine ⟨?_, ?_⟩
  · rw [hj, Journal.storedTriggers_append]
    exact List.mem_append_right _ h.stored
  · cases hkind with
    | quiet ns he =>
      unfold Engine.Kept
      rw [he.shelf, he.owners]
      exact h.kept
    | change c hc hend hfit => exact c.kept h.kept (hn.not_stored hend hc hfit h.stored)
    | checkOut hget =>
      intro hin
      exact h.kept ((Shelf.contains_checkOut hget).symm.trans hin)
    | checkIn =>
      intro hin
      exact h.kept (Shelf.contains_checkIn.symm.trans hin)
    | handle => exact h.kept

/-- What belongs to somebody at one moment of a run does so at all later ones at which it is still
there. -/
theorem Numbered.kept {x : EntityId} (hn : s.Numbered) (hm : Moves allowed s s')
    (hstored : s.engine.shelf.contains id = true) (ho : s.engine.owners[id]? = some x) :
    s'.engine.Kept id := by
  have hs : s.Kept id := ⟨hn.slots id hstored, fun _ => ⟨x, ho⟩⟩
  exact (hm.keep (P := fun s' => s'.Numbered ∧ s'.Kept id)
    (fun _ _ hmove h => ⟨h.1.move hmove, h.2.move hmove h.1⟩) ⟨hn, hs⟩).2.kept

end Session

/-! ## In every session of a run -/

namespace Session

variable {κ σ : Type} {world : WorldId} {settings : Settings} {state : σ} {budget : Nat}
  {s : Session κ σ}

end Session

end Encounter
