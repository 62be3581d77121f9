import Encounter.Engine.InPlace
import Encounter.Engine.Execution
import Encounter.Proofs.Removal

/-!
# A refusal changes nothing

The operations that can be refused consist of many steps, and each step is done on the engine
itself (`Encounter.Engine.InPlace`). Every refusal comes before the first step that rewrites
something: once an operation has begun to write it can no longer be refused, since what it needs is
there and stays there (`Engine.attach_store`, `Engine.registerAll_ok`). So carrying a change out in
place comes to the same as working on a copy (`Change.inPlace_eq_apply`), and a refused one leaves
the engine as it was.
-/

set_option autoImplicit false

namespace Encounter

/-- What an operation comes to that gives a new engine, or is refused on the old one. -/
def Engine.outcome {κ α : Type} (e : Engine κ) :
    Except Failure (α × Engine κ) → EStateM.Result Failure (Engine κ) α
  | .ok (a, e') => .ok a e'
  | .error failure => .error failure e

@[simp] theorem Engine.outcome_ok {κ α : Type} {e e' : Engine κ} {a : α} :
    e.outcome (.ok (a, e')) = .ok a e' := rfl

@[simp] theorem Engine.outcome_error {κ α : Type} {e : Engine κ} {failure : Failure} :
    e.outcome (.error failure) = (.error failure e : EStateM.Result _ _ α) := rfl

/-! ## What cannot be refused any more -/

namespace Engine

variable {κ : Type} {e e' : Engine κ} {x : EntityId} {id : TriggerId}

/-- A trigger that was stored just now is given to an entity without refusal. -/
theorem attach_store {record : Entity} (hx : e.world.entity? x = some record) (t : Trigger κ) :
    ∃ e', (e.store t).2.attach x ⟨e.shelf.nextId⟩ = .ok e' := by
  refine ⟨_, attach_eq_ok.2 ⟨?_, ⟨record, hx⟩, rfl⟩⟩
  exact Shelf.contains_of_get? (s := (e.shelf.insert t).2) Shelf.get?_insert

theorem attach_keeps (h : e.attach x id = .ok e') : (e'.world.entity? x).isSome = true := by
  obtain ⟨-, ⟨record, hx⟩, rfl⟩ := attach_eq_ok.1 h
  rw [activate_world]
  show ((e.handOver x id).entity? x).isSome = true
  unfold handOver
  split
  · split <;> simp [World.isSome_entity?_modifyEntity, hx]
  · simp [World.isSome_entity?_modifyEntity, hx]

theorem register_keeps {t : Trigger κ} (h : e.register x t = .ok (id, e')) :
    (e'.world.entity? x).isSome = true := by
  obtain ⟨t', -, -, h⟩ := register_eq_ok h
  exact attach_keeps h

theorem register_ok (hx : (e.world.entity? x).isSome = true) (t : Trigger κ) :
    ∃ id e', e.register x t = .ok (id, e') := by
  obtain ⟨record, hx⟩ := Option.isSome_iff_exists.1 hx
  obtain ⟨e', hok⟩ := attach_store hx (t.withSource (t.head.source.getD record.name))
  refine ⟨⟨e.shelf.nextId⟩, e', ?_⟩
  rw [register, hx]
  show ((e.store _).2.attach x ⟨e.shelf.nextId⟩ >>= _) = _
  rw [hok]
  rfl

/-- The triggers of an entity that is there are registered without refusal. -/
theorem registerAll_ok (hx : (e.world.entity? x).isSome = true) (triggers : List (Trigger κ)) :
    ∃ ids e', e.registerAll x triggers = .ok (ids, e') := by
  induction triggers generalizing e with
  | nil => exact ⟨[], e, rfl⟩
  | cons t rest ih =>
    obtain ⟨id, e₁, h₁⟩ := register_ok hx t
    obtain ⟨ids, e₂, h₂⟩ := ih (register_keeps h₁)
    refine ⟨id :: ids, e₂, ?_⟩
    rw [registerAll, h₁]
    show (e₁.registerAll x rest >>= _) = _
    rw [h₂]
    rfl

end Engine

/-! ## Steps -/

namespace Edit

variable {κ α β : Type} {e : Engine κ} {x : EntityId} {id : TriggerId}

@[simp] theorem pure_run {a : α} : (pure a : Edit κ α) e = .ok a e := rfl

@[simp] theorem throw_run {failure : Failure} :
    (throw failure : Edit κ α) e = .error failure e := rfl

@[simp] theorem throw_bind {failure : Failure} {f : α → Edit κ β} :
    ((throw failure : Edit κ α) >>= f) e = .error failure e := rfl

@[simp] theorem get_bind {f : Engine κ → Edit κ β} : (get >>= f) e = f e e := rfl

@[simp] theorem modifyGet_bind {g : Engine κ → α × Engine κ} {f : α → Edit κ β} :
    ((modifyGet g : Edit κ α) >>= f) e = f (g e).1 (g e).2 := rfl

@[simp] theorem modify_run {g : Engine κ → Engine κ} :
    (modify g : Edit κ Unit) e = .ok () (g e) := rfl

@[simp] theorem modifyGet_run {g : Engine κ → α × Engine κ} :
    (modifyGet g : Edit κ α) e = .ok (g e).1 (g e).2 := rfl

@[simp] theorem modify_bind {g : Engine κ → Engine κ} {f : Unit → Edit κ β} :
    ((modify g : Edit κ Unit) >>= f) e = f () (g e) := rfl

@[simp] theorem onWorld_run {g : World → World} :
    (onWorld g : Edit κ Unit) e = .ok () { e with world := g e.world } := rfl

@[simp] theorem map_onWorld {g : World → World} {f : Unit → β} :
    (f <$> onWorld g : Edit κ β) e = .ok (f ()) { e with world := g e.world } := rfl

@[simp] theorem onWorld_bind {g : World → World} {f : Unit → Edit κ β} :
    (onWorld g >>= f) e = f () { e with world := g e.world } := rfl

theorem bind_of_ok {m : Edit κ α} {f : α → Edit κ β} {a : α} {e' : Engine κ} (h : m e = .ok a e') :
    (m >>= f) e = f a e' := by
  show EStateM.bind m f e = _
  rw [EStateM.bind, h]

theorem bind_of_error {m : Edit κ α} {f : α → Edit κ β} {failure : Failure} {e' : Engine κ}
    (h : m e = .error failure e') : (m >>= f) e = .error failure e' := by
  show EStateM.bind m f e = _
  rw [EStateM.bind, h]

theorem map_run {m : Edit κ α} {f : α → β} {r : Except Failure (α × Engine κ)}
    (h : m e = e.outcome r) : (f <$> m) e = e.outcome (r.map fun (a, e') => (f a, e')) := by
  show EStateM.map f m e = _
  rw [EStateM.map, h]
  cases r <;> rfl

theorem entity_bind_of_some {record : Entity} {f : Entity → Edit κ β}
    (h : e.world.entity? x = some record) : (entity x >>= f) e = f record e := by
  refine bind_of_ok ?_
  rw [entity, get_bind, h]
  rfl

theorem entity_bind_of_none {f : Entity → Edit κ β} (h : e.world.entity? x = none) :
    (entity x >>= f) e = .error (.unknownEntity x) e := by
  refine bind_of_error ?_
  rw [entity, get_bind, h]
  rfl

/-! ## Entities and tiles -/

theorem insert_eq (record : Entity) (e : Engine κ) :
    insert record e = e.outcome ((e.world.insert record).map e.onWorld) := by
  rw [insert, get_bind, World.insert]
  cases hc : e.world.entities.contains record.id with
  | true => rfl
  | false =>
    cases hp : record.position with
    | none =>
      by_cases hlast : record.id.raw = 0xffffffff <;> simp [hlast, Except.map, Engine.onWorld]
    | some p =>
      cases hin : e.world.grid.contains p with
      | false => simp [hin, Except.map]
      | true =>
        by_cases hlast : record.id.raw = 0xffffffff <;>
          simp [hin, hlast, Except.map, Engine.onWorld, World.modifyGrid]

theorem place_eq (x : EntityId) (p : Position) (e : Engine κ) :
    place x p e = e.outcome (((e.world.place x p).map ((), ·)).map e.onWorld) := by
  rw [place, World.place]
  cases hx : e.world.entity? x with
  | none => exact entity_bind_of_none hx
  | some record =>
    rw [entity_bind_of_some hx, get_bind]
    cases hin : e.world.grid.contains p with
    | false => simp [Except.map]
    | true => cases hp : record.position <;> simp [hp, Except.map, Engine.onWorld, World.modifyGrid]

theorem move_eq (x : EntityId) (p : Position) (e : Engine κ) :
    move x p e = e.outcome ((e.world.move x p).map e.onWorld) := by
  rw [move, get_bind, World.move]
  cases hc : e.world.entities.contains x with
  | false => simp [Except.map]
  | true =>
    cases hin : e.world.grid.contains p with
    | false => simp [hin, Except.map, Engine.onWorld]
    | true =>
      have hplace := map_run (f := fun _ => true) (place_eq x p e)
      cases hr : e.world.place x p <;> simpa [hin, hr, Except.map, Engine.onWorld] using hplace

/-! ## Triggers -/

theorem attach_eq (x : EntityId) (id : TriggerId) (e : Engine κ) :
    attach x id e = e.outcome ((e.attach x id).map ((), ·)) := by
  rw [attach, get_bind, Engine.attach]
  cases hc : e.shelf.contains id with
  | false => simp [Except.map]
  | true =>
    cases hx : e.world.entity? x with
    | none => simp [entity_bind_of_none hx, Except.map]
    | some record =>
      cases ho : e.owners[id]? with
      | none => simp [entity_bind_of_some hx, ho, Except.map, Engine.handOver]
      | some owner =>
        by_cases hsame : owner = x <;>
          simp [entity_bind_of_some hx, ho, hsame, Except.map, Engine.handOver]

theorem register_eq (x : EntityId) (t : Trigger κ) (e : Engine κ) :
    register x t e = e.outcome (e.register x t) := by
  rw [register, Engine.register]
  cases hx : e.world.entity? x with
  | none => exact entity_bind_of_none hx
  | some owner =>
    let t' := t.withSource (t.head.source.getD owner.name)
    obtain ⟨e', hok⟩ := Engine.attach_store hx t'
    have hattach := attach_eq x ⟨e.shelf.nextId⟩ (e.store t').2
    rw [hok] at hattach
    rw [entity_bind_of_some hx, modifyGet_bind]
    refine (bind_of_ok hattach).trans ?_
    show _ = e.outcome ((e.store t').2.attach x ⟨e.shelf.nextId⟩ >>= _)
    rw [hok]
    rfl

theorem registerAll_eq (x : EntityId) (triggers : List (Trigger κ)) (e : Engine κ) :
    registerAll x triggers e = e.outcome (e.registerAll x triggers) := by
  induction triggers generalizing e with
  | nil => rfl
  | cons t rest ih =>
    rw [registerAll, Engine.registerAll]
    have hfirst := register_eq x t e
    cases hr : e.register x t with
    | error failure =>
      rw [hr] at hfirst
      exact bind_of_error hfirst
    | ok p =>
      obtain ⟨id, e₁⟩ := p
      -- the entity is still there, so the others are not refused
      obtain ⟨ids, e₂, hrest⟩ := Engine.registerAll_ok (Engine.register_keeps hr) rest
      have hothers := ih e₁
      rw [hr] at hfirst
      rw [hrest] at hothers
      refine (bind_of_ok hfirst).trans ((bind_of_ok hothers).trans ?_)
      show _ = e.outcome ((e₁.registerAll x rest) >>= _)
      rw [hrest]
      rfl

theorem addPresets_eq (x : EntityId) (e : Engine κ) :
    addPresets x e = e.outcome (e.addPresets x) := by
  rw [addPresets, Engine.addPresets]
  cases hx : e.world.entity? x with
  | none => exact entity_bind_of_none hx
  | some record =>
    rw [entity_bind_of_some hx]
    exact registerAll_eq x record.kind.presets e

theorem removeTrigger_eq (id : TriggerId) (e : Engine κ) :
    removeTrigger id e = e.outcome (e.removeTrigger id) := by
  rw [removeTrigger, get_bind, Engine.removeTrigger]
  cases hc : e.shelf.contains id with
  | false => rfl
  | true =>
    cases ho : e.owners[id]? <;> simp [ho, Engine.detach]

theorem removeTriggers_eq (ids : List TriggerId) (e : Engine κ) :
    removeTriggers ids e = .ok () (e.removeTriggers ids) := by
  induction ids generalizing e with
  | nil => rfl
  | cons id rest ih =>
    have hstep := removeTrigger_eq id e
    rw [removeTriggers, get_bind]
    show _ = EStateM.Result.ok () (Engine.removeTriggers _ rest)
    cases hc : e.shelf.contains id with
    | false =>
      have hr : e.removeTrigger id = .error (.unknownTrigger id) := by
        simp [Engine.removeTrigger, hc]
      simpa [hr] using ih e
    | true =>
      obtain ⟨e₁, hr⟩ : ∃ e₁, e.removeTrigger id = .ok (e.shelf.get? id, e₁) :=
        ⟨_, Engine.removeTrigger_eq_ok.2 ⟨hc, rfl, rfl⟩⟩
      rw [hr] at hstep
      simpa [hr, bind_of_ok hstep] using ih e₁

theorem removeEntity_eq (x : EntityId) (e : Engine κ) :
    removeEntity x e = e.outcome (e.removeEntity x) := by
  have hstays := Engine.isSome_entity?_removeTriggers e x (e.triggersOf x)
  rw [removeEntity, Engine.removeEntity]
  cases hx : e.world.entity? x with
  | none =>
    rw [hx, Option.isSome_none, Option.isSome_eq_false_iff, Option.isNone_iff_eq_none] at hstays
    have hr : (e.removeTriggers (e.triggersOf x)).world.remove? x = none := by
      rw [World.remove?, hstays]
    simpa [hr] using entity_bind_of_none hx
  | some record =>
    -- the triggers go without the entity, so it is there to be taken out after them
    rw [hx, Option.isSome_some] at hstays
    obtain ⟨removed, world, hr⟩ := World.remove?_isSome hstays
    rw [entity_bind_of_some hx, get_bind, bind_of_ok (removeTriggers_eq _ e)]
    simp [hr]

/-! ## Records and registrations -/

theorem load_eq (record : Json) (e : Engine κ) :
    load record e = e.outcome ((e.load record).map fun ((x, _), e) => (x, e)) := by
  rw [load, Engine.load]
  cases hs : SavedEntity.read record with
  | error fault => rfl
  | ok saved =>
    dsimp only
    rw [get_bind]
    cases ht : e.vocabulary.readTriggers e.settings.maxChainDepth saved.triggers with
    | error failure => rfl
    | ok triggers =>
      let x := (e.world.spawn saved.name saved.kind).1
      let world := (e.world.spawn saved.name saved.kind).2.modifyEntity x fun r =>
        { r with stats := saved.stats }
      have hx : (world.entity? x).isSome = true := by
        rw [World.isSome_entity?_modifyEntity, World.entity?_spawn, if_pos rfl]
        rfl
      obtain ⟨ids, e', hok⟩ := Engine.registerAll_ok (e := { e with world }) hx triggers
      have hall := registerAll_eq x triggers { e with world }
      rw [hok] at hall
      dsimp only
      rw [modifyGet_bind, onWorld_bind]
      refine (bind_of_ok hall).trans ?_
      show _ = e.outcome (Except.map _ (Engine.registerAll { e with world } x triggers >>= _))
      rw [hok]
      rfl

theorem onVocabulary_eq (f : Vocabulary κ → Except Failure (α × Vocabulary κ)) (e : Engine κ) :
    onVocabulary f e =
      e.outcome ((f e.vocabulary).map fun (a, vocabulary) => (a, { e with vocabulary })) := by
  rw [onVocabulary, get_bind]
  cases f e.vocabulary <;> rfl

end Edit

/-! ## Changes -/

theorem Engine.afterEdit_eq {κ α : Type} {e : Engine κ} {edit : Edit κ α}
    {r : Except Failure (α × Engine κ)} (h : edit e = e.outcome r) :
    e.afterEdit edit = e.orRefuse r := by
  rw [afterEdit, h]
  cases r <;> rfl

namespace Change

variable {κ α : Type}

/-- A change made on the engine itself, step by step, comes to the same as one made on a copy. -/
theorem inPlace_eq_apply (c : Change κ α) (e : Engine κ) : c.inPlace e = c.apply e := by
  cases c with
  | insert record => exact Engine.afterEdit_eq (Edit.insert_eq record e)
  | place x p => exact Engine.afterEdit_eq (Edit.place_eq x p e)
  | move x p => exact Engine.afterEdit_eq (Edit.move_eq x p e)
  | removeEntity x => exact Engine.afterEdit_eq (Edit.removeEntity_eq x e)
  | register x t => exact Engine.afterEdit_eq (Edit.register_eq x t e)
  | attach x id => exact Engine.afterEdit_eq (Edit.attach_eq x id e)
  | removeTrigger id => exact Engine.afterEdit_eq (Edit.removeTrigger_eq id e)
  | addPresets x => exact Engine.afterEdit_eq (Edit.addPresets_eq x e)
  | load record => exact Engine.afterEdit_eq (Edit.load_eq record e)
  | addConditionType tag maker =>
    refine Engine.afterEdit_eq ((Edit.onVocabulary_eq _ e).trans ?_)
    cases e.vocabulary.conditions.register tag maker <;> rfl
  | addReactionType tag maker =>
    refine Engine.afterEdit_eq ((Edit.onVocabulary_eq _ e).trans ?_)
    cases e.vocabulary.reactions.register tag maker <;> rfl
  | nameCondition name code =>
    refine Engine.afterEdit_eq ((Edit.onVocabulary_eq _ e).trans ?_)
    cases e.vocabulary.functions.addCondition name code <;> rfl
  | nameReaction name code =>
    refine Engine.afterEdit_eq ((Edit.onVocabulary_eq _ e).trans ?_)
    cases e.vocabulary.functions.addReaction name code <;> rfl
  | _ => rfl

theorem eq_error_of_refused {e : Engine κ} {r : Except Failure (α × Engine κ)}
    (h : (!(e.orRefuse r).1.isOk) = true) : ∃ failure, r = .error failure := by
  cases r with
  | error failure => exact ⟨failure, rfl⟩
  | ok p => cases h

theorem eq_error_of_map {β : Type} {r : Except Failure α} {f : α → β} {failure : Failure}
    (h : r.map f = .error failure) : r = .error failure := by
  cases r with
  | error failure' =>
    cases h
    rfl
  | ok a => cases h

/-- A refused change leaves the engine as it was. -/
theorem apply_of_refuses {c : Change κ α} {e : Engine κ} (h : c.refuses (c.apply e).1 = true) :
    (c.apply e).2 = e := by
  have hrefused : ∀ {β : Type} {r : Except Failure (β × Engine κ)},
      (!(e.orRefuse r).1.isOk) = true → (e.orRefuse r).2 = e := fun hr => by
    obtain ⟨failure, rfl⟩ := eq_error_of_refused hr
    rfl
  cases c with
  | move x p =>
    show (e.orRefuse ((e.world.move x p).map e.onWorld)).2 = e
    change refuses (.move x p) (e.orRefuse ((e.world.move x p).map e.onWorld)).1 = true at h
    rw [World.move] at h ⊢
    split
    · rfl
    · split
      · rfl
      · -- the tile is there, so the answer is not that the entity did not move
        rename_i hx hin
        rw [if_neg hx, if_neg hin] at h
        cases hr : e.world.place x p with
        | error failure => rfl
        | ok w =>
          rw [hr] at h
          cases h
  | insert | place | removeEntity | register | attach | removeTrigger | addPresets | load
  | addConditionType | addReactionType | nameCondition | nameReaction => exact hrefused h
  | _ => cases h

/-- A change that is refused stores no trigger and is not worth a remark. -/
theorem notices_of_refuses {c : Change κ α} {e : Engine κ} (h : c.refuses (c.apply e).1 = true) :
    c.notices e e = [] := by
  have hdropped : (e.shelf.ids.filter fun id => !e.shelf.contains id) = [] := by
    simp [Shelf.mem_ids]
  have hrest : c.stored e = [] ∧ c.remarks e = [] := by
    refine ⟨?_, ?_⟩
    · cases c with
      | register x t =>
        obtain ⟨failure, hr⟩ := eq_error_of_refused h
        rw [stored, hr]
      | addPresets x =>
        obtain ⟨failure, hr⟩ := eq_error_of_refused h
        rw [stored, hr]
      | load record =>
        obtain ⟨failure, hr⟩ := eq_error_of_refused h
        rw [stored, eq_error_of_map hr]
      | registerGlobal => cases h
      | _ => rfl
    · cases c <;> first | rfl | cases h
  rw [notices, hdropped, hrest.1, hrest.2]
  rfl

end Change

/-! ## Records -/

/-- Records of which one cannot be read are not read. -/
theorem Vocabulary.readTriggers_eq_error {κ : Type} {v : Vocabulary κ} {limit : UInt64}
    {record : Json} {failure : Failure} (hread : v.readTrigger limit record = .error failure) :
    ∀ {records : List Json}, record ∈ records →
      ∃ failure, v.readTriggers limit records = .error failure
  | first :: rest, hmem => by
    rw [readTriggers]
    cases hfirst : v.readTrigger limit first with
    | error failure => exact ⟨failure, rfl⟩
    | ok t =>
      have hrest : record ∈ rest := by
        refine (List.mem_cons.1 hmem).resolve_left fun heq => ?_
        rw [← heq, hread] at hfirst
        cases hfirst
      obtain ⟨failure, hrest⟩ := readTriggers_eq_error hread hrest
      refine ⟨failure, ?_⟩
      show (v.readTriggers limit rest >>= _) = _
      rw [hrest]
      rfl

/-- Nothing is created from the record of an entity with a trigger that cannot be read. -/
theorem Engine.load_eq_error {κ : Type} {e : Engine κ} {record t : Json} {saved : SavedEntity}
    {failure : Failure} (hsaved : SavedEntity.read record = .ok saved) (ht : t ∈ saved.triggers)
    (hread : e.readTrigger t = .error failure) : ∃ failure, e.load record = .error failure := by
  obtain ⟨failure, h⟩ := Vocabulary.readTriggers_eq_error hread ht
  refine ⟨failure, ?_⟩
  rw [load, hsaved]
  dsimp only
  rw [h]
  rfl

/-! ## Refusals -/

/-- A change that is refused leaves the engine as it was, though it is made on the engine itself;
so it does in a run, whatever runs around it. In particular nothing comes of the record of an entity
if one of its triggers cannot be read. -/
theorem Change.refused_changes_nothing {κ σ : Type} (host : Host κ σ) (invoke : Invoke κ σ) :
    (∀ {α : Type} (c : Change κ α) (e : Engine κ),
      c.refuses (c.inPlace e).1 = true → (c.inPlace e).2 = e) ∧
    (∀ {α : Type} (c : Change κ α) (s s' : Session κ σ) (a : α),
      Run.operation host invoke (.change c) s = .ok a s' →
        (a, s'.engine) = c.inPlace s.engine ∧
          (c.refuses a = true → s' = { s with budget := s'.budget })) ∧
    ∀ (e : Engine κ) (record : Json) (saved : SavedEntity),
      SavedEntity.read record = .ok saved →
        (∃ t ∈ saved.triggers, (e.readTrigger t).isOk = false) →
          ∃ failure, (Change.load record).inPlace e = (.error failure, e) := by
  refine ⟨fun c e h => ?_, fun c s s' a hrun => ?_, fun e record saved hsaved ⟨t, ht, hread⟩ => ?_⟩
  · rw [inPlace_eq_apply] at h ⊢
    exact apply_of_refuses h
  · obtain ⟨b, -, -, -, rfl, rfl⟩ := Run.makeChange_eq_ok.1 hrun
    rw [inPlace_eq_apply]
    refine ⟨rfl, fun h => ?_⟩
    dsimp only
    rw [apply_of_refuses h, notices_of_refuses h]
    rfl
  · cases hr : e.readTrigger t with
    | ok t => simp [hr, Except.isOk, Except.toBool] at hread
    | error failure =>
      obtain ⟨failure, h⟩ := Engine.load_eq_error hsaved ht hr
      refine ⟨failure, ?_⟩
      rw [inPlace_eq_apply, apply, h]
      rfl

/-- The record of one who rings a bell and then does what no vocabulary knows. -/
def Json.ringer : Json :=
  .record [("entity_type", .string "npc"), ("name", .string "ringer"),
    ("triggers", .list [(Trigger.new (κ := Unit) "RUNG" .always (.sound "bell")).toJson,
      .record [("condition", .record [("type", .string "AlwaysTrue")]),
        ("event_type", .string "RUNG"), ("reaction", .record [("type", .string "Dance")])]])]

/-- Placing nobody, moving nobody in a run, and loading the ringer are refused. -/
theorem Change.refused_changes_nothing_ringer :
    (∀ e : Engine Unit, e = .new Engine.defaultWorld {} →
      ((Change.place ⟨7⟩ ⟨0, 0⟩).inPlace e).2 = e ∧
        ∃ failure, (Change.load Json.ringer).inPlace e = (.error failure, e)) ∧
    ∃ s s' : Session Unit Unit, Run.operation (.removing ⟨1⟩) (fun _ p => pure (.untouched p))
      (.change (.move ⟨7⟩ ⟨0, 0⟩)) s = .ok (.error (.unknownEntity ⟨7⟩)) s' ∧
        s' = { s with budget := s'.budget } := by
  have hall := refused_changes_nothing (Host.removing ⟨1⟩) fun _ p => pure (.untouched p)
  refine ⟨fun e he => ⟨hall.1 _ e (by subst he; rfl), ?_⟩, ?_⟩
  · subst he
    refine hall.2.2 _ _ ⟨"ringer", .npc, ∅, _⟩ rfl
      ⟨_, List.mem_cons_of_mem _ List.mem_cons_self, ?_⟩
    decide +kernel
  · have hrun : Run.operation (.removing ⟨1⟩) (fun _ p => pure (.untouched p))
        (.change (.move ⟨7⟩ ⟨0, 0⟩)) (Session.opening Engine.defaultWorld {} () 1) =
          .ok (.error (.unknownEntity ⟨7⟩)) (Session.opening Engine.defaultWorld {} () 0) := rfl
    exact ⟨_, _, hrun, (hall.2.1 _ _ _ _ hrun).2 rfl⟩

end Encounter
