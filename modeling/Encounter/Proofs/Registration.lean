import Encounter.Engine.Change
import Encounter.Proofs.Listeners
import Encounter.Proofs.Shelf
import Encounter.Proofs.World

/-!
# What the life of a trigger is made of

The operations of `Encounter.Engine.Lifecycle`, taken apart once and for all: `attach_eq_ok`,
`register_eq_ok`, `registerAll_cons_eq_ok`, `load_eq_ok` and `removeTrigger_eq_ok` say when an
operation is not refused and which engine it gives then. Registering a trigger of an entity comes
down to registering one of nobody and attaching it. None of this touches the handlers or the turn
order (`Engine.Apart`), nor the clock, the actors or the interruptions (`Engine.SameRest`).
-/

set_option autoImplicit false

namespace Encounter

/-! ## Refusals -/

theorem bind_eq_ok {ε α β : Type} {x : Except ε α} {f : α → Except ε β} {b : β} :
    (x >>= f) = .ok b ↔ ∃ a, x = .ok a ∧ f a = .ok b := by
  cases x <;> simp [bind, Except.bind]

theorem map_eq_ok {ε α β : Type} {x : Except ε α} {f : α → β} {b : β} :
    x.map f = .ok b ↔ ∃ a, x = .ok a ∧ f a = b := by
  cases x <;> simp [Except.map]

namespace Engine

variable {κ α : Type} {e e' : Engine κ} {x : EntityId} {id : TriggerId} {t : Trigger κ}

/-- What holds of the old engine and of any new one holds after an operation that can be refused. -/
theorem orRefuse_cases {P : Engine κ → Prop} {r : Except Failure (α × Engine κ)} (hold : P e)
    (hnew : ∀ a e', r = .ok (a, e') → P e') : P (e.orRefuse r).2 := by
  cases r with
  | error failure => exact hold
  | ok p => exact hnew p.1 p.2 rfl

theorem onWorldOrRefuse_cases {P : Engine κ → Prop} {r : Except Failure (α × World)} (hold : P e)
    (hnew : ∀ a world, r = .ok (a, world) → P { e with world }) : P (e.onWorldOrRefuse r).2 := by
  refine orRefuse_cases hold fun a e' h => ?_
  obtain ⟨⟨b, world⟩, hr, he⟩ := map_eq_ok.1 h
  cases he
  exact hnew b world hr

/-! ## Activation -/

@[simp] theorem activate_shelf : (e.activate id).shelf = e.shelf := by
  unfold activate; split <;> rfl

@[simp] theorem activate_world : (e.activate id).world = e.world := by
  unfold activate; split <;> rfl

@[simp] theorem activate_owners : (e.activate id).owners = e.owners := by
  unfold activate; split <;> rfl

theorem activate_of_get? (h : e.shelf.get? id = some t) : e.activate id = { e with
    roster := e.roster.add id t.head.source
    listeners := (e.listeners.subscribe t.event (.trigger id)).2 } := by
  unfold activate; rw [h]

/-- Nothing happens where no trigger waits. -/
theorem activate_of_none (h : e.shelf.get? id = none) : e.activate id = e := by
  unfold activate; rw [h]

/-- Neither the world nor the owners play a part in an activation. -/
theorem activate_with (world : World) (owners : Std.ExtTreeMap TriggerId EntityId) :
    ({ e with world, owners }).activate id = { e.activate id with world, owners } := by
  unfold activate
  dsimp only
  split <;> rfl

theorem contains_add_iff {r : Roster} {origin : Option String} {i : TriggerId} :
    (r.add id origin).contains i = true ↔ i = id ∨ r.contains i = true := by
  unfold Roster.add
  split
  · rename_i hin
    exact ⟨.inr, fun h => h.elim (fun he => he ▸ hin) fun h => h⟩
  · simp only [Roster.contains, Std.ExtTreeMap.contains_insert, Bool.or_eq_true, beq_iff_eq,
      Std.LawfulEqCmp.compare_eq_iff_eq, eq_comm (a := id)]

/-- A trigger that is live and listens stays as it is. -/
theorem activate_eq_self (h : e.shelf.get? id = some t) (hlive : e.roster.contains id = true)
    (hheard : .trigger id ∈ e.listeners.subscribers t.event) : e.activate id = e := by
  rw [activate_of_get? h, Roster.add, if_pos hlive, Listeners.subscribe_of_mem hheard]

theorem activate_activate : (e.activate id).activate id = e.activate id := by
  cases h : e.shelf.get? id with
  | none => rw [activate_of_none h, activate_of_none h]
  | some t =>
    refine activate_eq_self (t := t) (by rwa [activate_shelf]) ?_ ?_
    · rw [activate_of_get? h]
      exact contains_add_iff.2 (.inl rfl)
    · rw [activate_of_get? h]
      exact Listeners.mem_subscribe.2 (.inl ⟨rfl, rfl⟩)

/-! ## Registering -/

theorem attach_eq_ok : e.attach x id = .ok e' ↔
    e.shelf.contains id = true ∧ (∃ record, e.world.entity? x = some record) ∧
      e' = ({ e with world := e.handOver x id, owners := e.owners.insert id x }).activate id := by
  unfold attach
  cases hc : e.shelf.contains id <;> cases hx : e.world.entity? x <;> simp [eq_comm]

@[simp] theorem handOver_activate (i : TriggerId) :
    (e.activate id).handOver x i = e.handOver x i := by
  unfold handOver
  rw [activate_world, activate_owners]

/-- Attaching makes a trigger live, so it need not be so before. -/
theorem attach_activate : (e.activate id).attach x id = e.attach x id := by
  unfold attach
  split <;> rename_i hc <;> rw [activate_shelf] at hc
  · rw [if_pos hc]
  · rw [if_neg hc]
    split <;> rename_i hx <;> rw [activate_world] at hx
    · rw [if_pos hx]
    · rw [if_neg hx, handOver_activate, activate_owners]
      exact congrArg Except.ok (by rw [← activate_with, activate_activate])

theorem registerGlobal_eq : e.registerGlobal t = (⟨e.shelf.nextId⟩,
    ({ e with shelf := (e.shelf.insert t).2 }).activate ⟨e.shelf.nextId⟩) := rfl

@[simp] theorem registerGlobal_shelf :
    (e.registerGlobal t).2.shelf = (e.shelf.insert t).2 := by
  rw [registerGlobal_eq, activate_shelf]

/-- A registered trigger of an entity is one of nobody that is attached at once. -/
theorem register_eq_ok (h : e.register x t = .ok (id, e')) :
    ∃ t' : Trigger κ, (∃ record, e.world.entity? x = some record ∧
      t' = t.withSource (t.head.source.getD record.name)) ∧ id = ⟨e.shelf.nextId⟩ ∧
        (e.registerGlobal t').2.attach x id = .ok e' := by
  unfold register at h
  split at h
  · cases h
  · rename_i record hx
    obtain ⟨e₂, hattach, h⟩ := bind_eq_ok.1 h
    cases h
    refine ⟨_, ⟨record, hx, rfl⟩, rfl, ?_⟩
    rw [registerGlobal_eq, attach_activate]
    exact hattach

theorem registerAll_cons_eq_ok {rest : List (Trigger κ)} {ids : List TriggerId}
    (h : e.registerAll x (t :: rest) = .ok (ids, e')) :
    ∃ id₁ e₁ ids', e.register x t = .ok (id₁, e₁) ∧ e₁.registerAll x rest = .ok (ids', e') ∧
      ids = id₁ :: ids' := by
  unfold registerAll at h
  obtain ⟨⟨id₁, e₁⟩, h₁, h⟩ := bind_eq_ok.1 h
  obtain ⟨⟨ids', e₂⟩, h₂, h⟩ := bind_eq_ok.1 h
  cases h
  exact ⟨id₁, e₁, ids', h₁, h₂, rfl⟩

theorem addPresets_eq_ok {ids : List TriggerId} (h : e.addPresets x = .ok (ids, e')) :
    ∃ record, e.world.entity? x = some record ∧
      e.registerAll x record.kind.presets = .ok (ids, e') := by
  unfold addPresets at h
  split at h
  · cases h
  · exact ⟨_, ‹_›, h⟩

/-- Loading creates an entity, gives it its stats and registers the triggers that are read. -/
theorem load_eq_ok {record : Json} {ids : List TriggerId}
    (h : e.load record = .ok ((x, ids), e')) :
    ∃ (name : String) (kind : EntityKind) (stats : Stats) (triggers : List (Trigger κ)),
      (∃ records, e.vocabulary.readTriggers e.settings.maxChainDepth records = .ok triggers) ∧
      x = (e.world.spawn name kind).1 ∧
        registerAll { e with
          world := (e.world.spawn name kind).2.modifyEntity x fun r => { r with stats } }
          x triggers = .ok (ids, e') := by
  unfold load at h
  split at h
  · cases h
  · rename_i saved hs
    obtain ⟨triggers, hread, h⟩ := bind_eq_ok.1 h
    obtain ⟨⟨ids', e₁⟩, hall, h⟩ := bind_eq_ok.1 h
    cases h
    exact ⟨saved.name, saved.kind, saved.stats, triggers, ⟨_, hread⟩, rfl, hall⟩

/-! ## Removing -/

theorem removeTrigger_eq_ok {answer : Option (Trigger κ)} :
    e.removeTrigger id = .ok (answer, e') ↔ e.shelf.contains id = true ∧
      answer = e.shelf.get? id ∧ e' = { e with
        listeners := e.listeners.unsubscribeAll (.trigger id)
        roster := e.roster.remove id
        world := e.detach id
        owners := e.owners.erase id
        shelf := (e.shelf.remove id).2 } := by
  unfold removeTrigger
  cases hc : e.shelf.contains id <;> simp [Shelf.remove, eq_comm]

/-- What removing one trigger keeps, removing several does. -/
theorem removeTriggers_keeps {P : Engine κ → Prop}
    (hP : ∀ e id answer e', P e → Engine.removeTrigger e id = .ok (answer, e') → P e') :
    ∀ (ids : List TriggerId) (e : Engine κ), P e → P (e.removeTriggers ids)
  | [], _, he => he
  | id :: ids, e, he => by
    show P (Engine.removeTriggers _ ids)
    refine removeTriggers_keeps hP ids _ ?_
    dsimp only
    split
    · rename_i answer e' h
      exact hP e id answer e' he h
    · exact he

theorem removeEntity_eq_ok {removed : Entity} (h : e.removeEntity x = .ok (removed, e')) :
    ∃ world, (e.removeTriggers (e.triggersOf x)).world.remove? x = some (removed, world) ∧
      e' = { e.removeTriggers (e.triggersOf x) with
        world
        actors := (e.removeTriggers (e.triggersOf x)).actors.erase x
        order := (e.removeTriggers (e.triggersOf x)).order.remove x } := by
  unfold removeEntity at h
  dsimp only at h
  split at h
  · cases h
  · rename_i r world hr
    cases h
    exact ⟨world, hr, rfl⟩

/-! ## What stays apart -/

/-- Both engines have the same handlers, number the next one alike and have the same turn order. -/
structure Apart (e e' : Engine κ) : Prop where
  handlers : e'.listeners.handlers = e.listeners.handlers
  nextHandler : e'.listeners.nextHandler = e.listeners.nextHandler
  order : e'.order = e.order

theorem Apart.refl (e : Engine κ) : e.Apart e := ⟨rfl, rfl, rfl⟩

theorem Apart.trans {e₁ e₂ e₃ : Engine κ} (h : e₁.Apart e₂) (h' : e₂.Apart e₃) : e₁.Apart e₃ :=
  ⟨h'.handlers.trans h.handlers, h'.nextHandler.trans h.nextHandler, h'.order.trans h.order⟩

theorem activate_apart (e : Engine κ) (id : TriggerId) :
    e.Apart (e.activate id) := by
  unfold activate
  split
  · exact .refl e
  · unfold Listeners.subscribe
    refine ⟨?_, ?_, rfl⟩ <;> dsimp only <;> split <;> rfl

theorem attach_apart (h : e.attach x id = .ok e') : e.Apart e' := by
  obtain ⟨-, -, rfl⟩ := attach_eq_ok.1 h
  have hact := activate_apart
    { e with world := e.handOver x id, owners := e.owners.insert id x } id
  exact ⟨hact.handlers, hact.nextHandler, hact.order⟩

theorem registerGlobal_apart (t : Trigger κ) : e.Apart (e.registerGlobal t).2 := by
  have hact := activate_apart { e with shelf := (e.shelf.insert t).2 } ⟨e.shelf.nextId⟩
  exact ⟨hact.handlers, hact.nextHandler, hact.order⟩

theorem register_apart {t : Trigger κ} (h : e.register x t = .ok (id, e')) :
    e.Apart e' := by
  obtain ⟨t', -, -, h⟩ := register_eq_ok h
  exact (registerGlobal_apart t').trans (attach_apart h)

theorem registerAll_apart {triggers : List (Trigger κ)} {ids : List TriggerId}
    (h : e.registerAll x triggers = .ok (ids, e')) : e.Apart e' := by
  induction triggers generalizing e ids with
  | nil =>
    cases h
    exact .refl _
  | cons t rest ih =>
    obtain ⟨id, e₁, ids', h₁, h₂, rfl⟩ := registerAll_cons_eq_ok h
    exact (register_apart h₁).trans (ih h₂)

theorem removeTriggers_apart (ids : List TriggerId) :
    e.Apart (e.removeTriggers ids) := by
  refine removeTriggers_keeps (P := Apart e) ?_ ids e (.refl e)
  intro e₁ id answer e₂ h₁ h
  obtain ⟨-, -, rfl⟩ := removeTrigger_eq_ok.1 h
  exact h₁.trans ⟨rfl, rfl, rfl⟩

/-- Both engines have the same time, the same participants and actors, the same interruptions, the
same vocabulary and the same things on the table. -/
structure SameRest (e e' : Engine κ) : Prop where
  settings : e'.settings = e.settings
  clock : e'.clock = e.clock
  order : e'.order = e.order
  actors : e'.actors = e.actors
  waiting : e'.waiting = e.waiting
  vocabulary : e'.vocabulary = e.vocabulary
  roller : e'.roller = e.roller
  gamemaster : e'.gamemaster = e.gamemaster
  audio : e'.audio = e.audio

theorem SameRest.refl (e : Engine κ) : e.SameRest e := ⟨rfl, rfl, rfl, rfl, rfl, rfl, rfl, rfl, rfl⟩

theorem sameRest_with (e : Engine κ) (world : World) (listeners : Listeners κ) (shelf : Shelf κ)
    (roster : Roster) (owners : Std.ExtTreeMap TriggerId EntityId) :
    e.SameRest { e with world, listeners, shelf, roster, owners } :=
  ⟨rfl, rfl, rfl, rfl, rfl, rfl, rfl, rfl, rfl⟩

theorem SameRest.trans {e₁ e₂ e₃ : Engine κ} (h : e₁.SameRest e₂) (h' : e₂.SameRest e₃) :
    e₁.SameRest e₃ := by
  constructor
  · rw [h'.settings, h.settings]
  · rw [h'.clock, h.clock]
  · rw [h'.order, h.order]
  · rw [h'.actors, h.actors]
  · rw [h'.waiting, h.waiting]
  · rw [h'.vocabulary, h.vocabulary]
  · rw [h'.roller, h.roller]
  · rw [h'.gamemaster, h.gamemaster]
  · rw [h'.audio, h.audio]

theorem activate_rest (e : Engine κ) (id : TriggerId) : e.SameRest (e.activate id) := by
  unfold activate
  split
  · exact .refl e
  · exact sameRest_with ..

theorem attach_rest (h : e.attach x id = .ok e') : e.SameRest e' := by
  obtain ⟨-, -, rfl⟩ := attach_eq_ok.1 h
  have hact := activate_rest
    { e with world := e.handOver x id, owners := e.owners.insert id x } id
  exact (sameRest_with e _ _ _ _ _).trans hact

theorem registerGlobal_rest (e : Engine κ) (t : Trigger κ) :
    e.SameRest (e.registerGlobal t).2 := by
  have hact := activate_rest { e with shelf := (e.shelf.insert t).2 } ⟨e.shelf.nextId⟩
  exact (sameRest_with e _ _ _ _ _).trans hact

theorem register_rest (h : e.register x t = .ok (id, e')) : e.SameRest e' := by
  obtain ⟨t', -, -, ha⟩ := register_eq_ok h
  exact (registerGlobal_rest e t').trans (attach_rest ha)

theorem registerAll_rest {triggers : List (Trigger κ)} {ids : List TriggerId}
    (h : e.registerAll x triggers = .ok (ids, e')) : e.SameRest e' := by
  induction triggers generalizing e ids with
  | nil =>
    cases h
    exact .refl _
  | cons t rest ih =>
    obtain ⟨id, e₁, ids', h₁, h₂, rfl⟩ := registerAll_cons_eq_ok h
    exact (register_rest h₁).trans (ih h₂)

theorem removeTriggers_rest (e : Engine κ) (ids : List TriggerId) :
    e.SameRest (e.removeTriggers ids) := by
  refine removeTriggers_keeps (P := SameRest e) ?_ ids e (.refl e)
  intro e₁ id answer e₂ h₁ h
  obtain ⟨-, -, rfl⟩ := removeTrigger_eq_ok.1 h
  exact h₁.trans (sameRest_with ..)

end Engine

/-- Does the change concern entities, tiles, triggers and listeners only? -/
def Change.IsOfTables {κ α : Type} : Change κ α → Prop
  | .allocate | .spawn .. | .insert _ | .edit .. | .damage .. | .place .. | .move .. => True
  | .addTag .. | .removeTag .. | .editTile .. => True
  | .register .. | .registerGlobal _ | .attach .. | .removeTrigger _ | .editTrigger .. => True
  | .addPresets _ | .load _ | .resetEvents => True
  | .addHandler _ | .removeHandler _ | .subscribe .. | .unsubscribe .. => True
  | _ => False

open Engine in
theorem Change.sameRest {κ α : Type} (c : Change κ α) (hc : c.IsOfTables) (e : Engine κ) :
    e.SameRest (c.apply e).2 := by
  have hrefuse : ∀ {β : Type} {r : Except Failure (β × Engine κ)},
      (∀ b e', r = .ok (b, e') → e.SameRest e') → e.SameRest (e.orRefuse r).2 := fun hr =>
    orRefuse_cases (P := e.SameRest) (.refl e) hr
  cases c with
  | register x t => exact hrefuse fun _ _ h => register_rest h
  | registerGlobal t => exact registerGlobal_rest e t
  | addPresets x =>
    refine hrefuse fun ids e' h => ?_
    obtain ⟨_, -, h⟩ := addPresets_eq_ok h
    exact registerAll_rest h
  | load record =>
    refine hrefuse fun x e' h => ?_
    obtain ⟨⟨⟨x', ids⟩, e₁⟩, h, he⟩ := map_eq_ok.1 h
    cases he
    obtain ⟨name, kind, stats, triggers, -, -, h⟩ := load_eq_ok h
    have hall := registerAll_rest h
    exact (sameRest_with e _ _ _ _ _).trans hall
  | attach x id =>
    refine hrefuse fun _ e' h => ?_
    obtain ⟨e₁, h, he⟩ := map_eq_ok.1 h
    cases he
    exact attach_rest h
  | removeTrigger id =>
    refine hrefuse fun _ e' h => ?_
    obtain ⟨-, -, rfl⟩ := removeTrigger_eq_ok.1 h
    exact sameRest_with ..
  | resetEvents => exact (removeTriggers_rest e _).trans (sameRest_with ..)
  | insert | place | move =>
    exact onWorldOrRefuse_cases (P := e.SameRest) (.refl e) fun _ _ _ => sameRest_with ..
  | allocate | spawn | edit | damage | addTag | removeTag | editTile | editTrigger | addHandler
  | removeHandler | subscribe | unsubscribe =>
    exact sameRest_with ..
  | _ => exact hc.elim

/-- Does the change leave the clock and the line of interruptions alone? -/
def Change.IsSteady {κ α : Type} : Change κ α → Prop
  | .schedule .. => False
  | .enqueue _ => False
  | .dequeue => False
  | _ => True

open Engine in
theorem Change.steady {κ α : Type} {c : Change κ α} (hc : c.IsSteady) (e : Engine κ) :
    (c.apply e).2.clock = e.clock ∧ (c.apply e).2.waiting = e.waiting := by
  have htables : c.IsOfTables →
      (c.apply e).2.clock = e.clock ∧ (c.apply e).2.waiting = e.waiting := fun h =>
    ⟨(c.sameRest h e).clock, (c.sameRest h e).waiting⟩
  have hrefuse : ∀ {β : Type} {r : Except Failure (β × Engine κ)},
      (∀ b e', r = .ok (b, e') → e'.clock = e.clock ∧ e'.waiting = e.waiting) →
        (e.orRefuse r).2.clock = e.clock ∧ (e.orRefuse r).2.waiting = e.waiting := fun hr =>
    orRefuse_cases (P := fun e' => e'.clock = e.clock ∧ e'.waiting = e.waiting) ⟨rfl, rfl⟩ hr
  cases c with
  | schedule | enqueue | dequeue => exact hc.elim
  | removeEntity x =>
    refine hrefuse fun removed e' h => ?_
    obtain ⟨world, -, rfl⟩ := removeEntity_eq_ok h
    exact ⟨(removeTriggers_rest e _).clock, (removeTriggers_rest e _).waiting⟩
  | addConditionType | addReactionType | nameCondition | nameReaction =>
    refine hrefuse fun _ e' h => ?_
    obtain ⟨_, -, he⟩ := map_eq_ok.1 h
    cases he
    exact ⟨rfl, rfl⟩
  | scheduleRounds | setOrder | setActor | removeActor | rollDie | rollD20 | rollDice
  | restoreDice | setGamemaster | setAudio => exact ⟨rfl, rfl⟩
  | _ => exact htables trivial

/-- Does the change leave handlers and turn order alone? -/
def Change.IsApart {κ α : Type} : Change κ α → Prop
  | .addHandler _ => False
  | .removeHandler _ => False
  | .removeEntity _ => False
  | .scheduleRounds .. => False
  | .setOrder _ => False
  | _ => True

open Engine in
theorem Change.apart {κ α : Type} (c : Change κ α) (hc : c.IsApart) (e : Engine κ) :
    e.Apart (c.apply e).2 := by
  cases c with
  | addHandler | removeHandler | removeEntity | scheduleRounds | setOrder => exact hc.elim
  | register x t => exact orRefuse_cases (P := e.Apart) (.refl e) fun _ _ h => register_apart h
  | registerGlobal t => exact registerGlobal_apart t
  | addPresets x =>
    refine orRefuse_cases (P := e.Apart) (.refl e) fun _ _ h => ?_
    obtain ⟨_, -, h⟩ := addPresets_eq_ok h
    exact registerAll_apart h
  | load record =>
    refine orRefuse_cases (P := e.Apart) (.refl e) fun x e' h => ?_
    obtain ⟨⟨⟨x', ids⟩, e₁⟩, h, he⟩ := map_eq_ok.1 h
    cases he
    obtain ⟨name, kind, stats, triggers, -, -, h⟩ := load_eq_ok h
    have hall := registerAll_apart h
    exact ⟨hall.handlers, hall.nextHandler, hall.order⟩
  | attach x id =>
    refine orRefuse_cases (P := e.Apart) (.refl e) fun _ e' h => ?_
    obtain ⟨e₁, h, he⟩ := map_eq_ok.1 h
    cases he
    exact attach_apart h
  | removeTrigger id =>
    refine orRefuse_cases (P := e.Apart) (.refl e) fun _ e' h => ?_
    obtain ⟨-, -, rfl⟩ := removeTrigger_eq_ok.1 h
    exact ⟨rfl, rfl, rfl⟩
  | resetEvents => exact (removeTriggers_apart _).trans ⟨rfl, rfl, rfl⟩
  | insert | place | move =>
    exact onWorldOrRefuse_cases (P := e.Apart) (.refl e) fun _ _ _ => ⟨rfl, rfl, rfl⟩
  | addConditionType | addReactionType | nameCondition | nameReaction =>
    refine orRefuse_cases (P := e.Apart) (.refl e) fun _ e' h => ?_
    obtain ⟨_, -, he⟩ := map_eq_ok.1 h
    cases he
    exact ⟨rfl, rfl, rfl⟩
  | subscribe event handler =>
    simp only [apply, onListeners, Listeners.subscribe]
    split <;> exact ⟨rfl, rfl, rfl⟩
  | dequeue =>
    simp only [apply, Engine.dequeue]
    split <;> exact ⟨rfl, rfl, rfl⟩
  | _ => exact ⟨rfl, rfl, rfl⟩

end Encounter
