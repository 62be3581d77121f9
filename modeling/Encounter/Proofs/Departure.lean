import Encounter.Proofs.Attachment
import Encounter.Proofs.Rotation

/-!
# What an entity leaves behind

Triggers that are removed one after the other are gone from all tables, and from the lists of the
entities that owned them; nothing else notices (`Engine.cleared_removeTriggers`,
`Engine.stripped_removeTriggers`). An entity that is removed takes all triggers with it that it
owns, and its place on the map and at the table besides (`Engine.Coherent.departs`).

There is one trace. From the turn order only the first of its places is taken; so an entity that was
listed more than once is still listed (`Session.departure_clears`).
-/

set_option autoImplicit false

namespace Encounter

/-- Is it one of the triggers that listens? -/
def Subscriber.isAmong (ids : List TriggerId) : Subscriber → Bool
  | .trigger id => id ∈ ids
  | .handler _ => false

namespace Engine

variable {κ : Type} {e e₁ e' : Engine κ} {x y : EntityId} {id i : TriggerId}
  {ids : List TriggerId} {card : TriggerId → Option Card} {firing : TriggerId → Card}

/-! ## Removing several triggers -/

/-- Triggers are gone from all tables, and from the lists of the entities that owned them. -/
structure Cleared (e : Engine κ) (ids : List TriggerId) (e' : Engine κ) : Prop where
  slots : ∀ i, e'.shelf.slots[i]? = if i ∈ ids then none else e.shelf.slots[i]?
  origins : ∀ i, e'.roster.origins[i]? = if i ∈ ids then none else e.roster.origins[i]?
  owners : ∀ i, e'.owners[i]? = if i ∈ ids then none else e.owners[i]?
  heard : ∀ event, e'.listeners.subscribers event =
    (e.listeners.subscribers event).filter fun s => !s.isAmong ids
  entities : ∀ y, e'.world.entity? y = (e.world.entity? y).map fun r =>
    { r with triggers := r.triggers.filter fun i => ¬(i ∈ ids ∧ e.owners[i]? = some y) }
  world : e'.world = { e.world with entities := e'.world.entities }
  nextId : e'.shelf.nextId = e.shelf.nextId

theorem Cleared.nil (e : Engine κ) : e.Cleared [] e := by
  constructor
  · simp
  · simp
  · simp
  · intro event
    refine (List.filter_eq_self.2 fun s _ => ?_).symm
    cases s <;> simp [Subscriber.isAmong]
  · intro y
    cases e.world.entity? y <;> simp
  · rfl
  · rfl

theorem Cleared.congr {ids' : List TriggerId} (h : e.Cleared ids e')
    (hids : ∀ i, i ∈ ids' ↔ i ∈ ids) : e.Cleared ids' e' := by
  have hamong : Subscriber.isAmong ids' = Subscriber.isAmong ids := by
    funext s
    cases s <;> simp [Subscriber.isAmong, hids]
  constructor
  · simpa only [hids] using h.slots
  · simpa only [hids] using h.origins
  · simpa only [hids] using h.owners
  · simpa only [hamong] using h.heard
  · simpa only [hids] using h.entities
  · exact h.world
  · exact h.nextId

theorem detach_world : e.detach id = { e.world with entities := (e.detach id).entities } := by
  unfold detach
  split <;> rfl

/-- One more trigger is removed, unless it is gone already. -/
theorem Cleared.remove {answer : Option (Trigger κ)} (h : e.Cleared ids e₁) (hid : id ∉ ids)
    (hr : e₁.removeTrigger id = .ok (answer, e')) : e.Cleared (ids ++ [id]) e' := by
  obtain ⟨-, -, rfl⟩ := removeTrigger_eq_ok.1 hr
  have howned : e₁.owners[id]? = e.owners[id]? := by rw [h.owners, if_neg hid]
  constructor
  · intro i
    rw [Shelf.slots_remove, h.slots]
    by_cases hi : id = i <;> simp [hi, eq_comm]
  · intro i
    simp only [Roster.remove, Std.ExtTreeMap.getElem?_erase, Std.LawfulEqCmp.compare_eq_iff_eq,
      h.origins]
    by_cases hi : id = i <;> simp [hi, eq_comm]
  · intro i
    simp only [Std.ExtTreeMap.getElem?_erase, Std.LawfulEqCmp.compare_eq_iff_eq, h.owners]
    by_cases hi : id = i <;> simp [hi, eq_comm]
  · intro event
    rw [Listeners.subscribers_unsubscribeAll, h.heard, List.filter_filter]
    refine List.filter_congr fun s _ => ?_
    cases s <;> simp [Subscriber.isAmong, Bool.and_comm]
  · intro y
    rw [entity?_detach, h.entities, Option.map_map, howned]
    refine congrArg (fun f => (e.world.entity? y).map f) (funext fun r => ?_)
    by_cases hy : e.owners[id]? = some y
    · simp only [Function.comp_apply, if_pos hy, Entity.detach, List.filter_filter]
      refine congrArg (fun triggers => { r with triggers }) (List.filter_congr fun i _ => ?_)
      by_cases hi : i = id <;> simp [hi, hy]
    · simp only [Function.comp_apply, if_neg hy]
      refine congrArg (fun triggers => { r with triggers }) (List.filter_congr fun i _ => ?_)
      by_cases hi : i = id <;> simp [hi, hy]
  · rw [detach_world, h.world]
  · exact h.nextId

theorem removeTriggers_singleton {answer : Option (Trigger κ)}
    (hr : e.removeTrigger id = .ok (answer, e')) : e.removeTriggers [id] = e' := by
  simp [removeTriggers, hr]

theorem cleared_removeTriggers (hslot : ∀ i ∈ ids, e.shelf.contains i = true) :
    e.Cleared ids (e.removeTriggers ids) := by
  induction ids using List.reverseRecOn with
  | nil => exact .nil e
  | append_singleton ids id ih =>
    have h := ih fun i hi => hslot i (by simp [hi])
    have hlast : e.removeTriggers (ids ++ [id]) = (e.removeTriggers ids).removeTriggers [id] :=
      List.foldl_append
    rw [hlast]
    by_cases hid : id ∈ ids
    · -- it comes again, and is gone already
      have hgone : (e.removeTriggers ids).shelf.contains id = false := by
        rw [Shelf.contains_eq, h.slots, if_pos hid]
        rfl
      have hsame : (e.removeTriggers ids).removeTriggers [id] = e.removeTriggers ids := by
        generalize e.removeTriggers ids = e₁ at hgone
        simp [removeTriggers, removeTrigger, hgone]
      rw [hsame]
      refine h.congr fun i => ?_
      rw [List.mem_append, List.mem_singleton, or_iff_left_iff_imp]
      rintro rfl
      exact hid
    · have hthere : (e.removeTriggers ids).shelf.contains id = true := by
        rw [Shelf.contains_eq, h.slots, if_neg hid, ← Shelf.contains_eq]
        exact hslot id (by simp)
      have hremoved := removeTrigger_eq_ok.2 ⟨hthere, rfl, rfl⟩
      have hone : (e.removeTriggers ids).removeTriggers [id] = _ :=
        removeTriggers_singleton hremoved
      rw [hone]
      exact h.remove hid hremoved

/-! ## Removing the triggers of an entity -/

/-- Triggers of an entity are gone from all tables and from its list. -/
structure Stripped (e : Engine κ) (x : EntityId) (ids : List TriggerId) (e' : Engine κ) : Prop where
  slots : ∀ i, e'.shelf.slots[i]? = if i ∈ ids then none else e.shelf.slots[i]?
  origins : ∀ i, e'.roster.origins[i]? = if i ∈ ids then none else e.roster.origins[i]?
  owners : ∀ i, e'.owners[i]? = if i ∈ ids then none else e.owners[i]?
  heard : ∀ event, e'.listeners.subscribers event =
    (e.listeners.subscribers event).filter fun s => !s.isAmong ids
  entities : ∀ y, e'.world.entity? y = (e.world.entity? y).map fun r =>
    if y = x then { r with triggers := r.triggers.filter (· ∉ ids) } else r
  grid : e'.world.grid = e.world.grid

theorem stripped_removeTriggers (howned : ∀ i ∈ ids, e.owners[i]? = some x)
    (hslot : ∀ i ∈ ids, e.shelf.contains i = true) : e.Stripped x ids (e.removeTriggers ids) := by
  have h := cleared_removeTriggers hslot
  refine ⟨h.slots, h.origins, h.owners, h.heard, fun y => ?_, by rw [h.world]⟩
  rw [h.entities]
  refine congrArg (fun f => (e.world.entity? y).map f) (funext fun r => ?_)
  by_cases hy : y = x
  · subst hy
    rw [if_pos rfl]
    refine congrArg (fun triggers => { r with triggers }) (List.filter_congr fun i _ => ?_)
    by_cases hi : i ∈ ids <;> simp [hi, howned]
  · have hall : (r.triggers.filter fun i => ¬(i ∈ ids ∧ e.owners[i]? = some y)) = r.triggers := by
      refine List.filter_eq_self.2 fun i _ => decide_eq_true ?_
      rintro ⟨hi, ho⟩
      exact hy (Option.some.inj (ho.symm.trans (howned i hi)))
    rw [if_neg hy, hall]

theorem Coherent.mem_triggersOf (h : e.Coherent card) :
    id ∈ e.triggersOf x ↔ e.owners[id]? = some x := by
  have hlisted : id ∈ ((e.world.entity? x).map (·.triggers)).getD [] ↔ e.owners[id]? = some x := by
    rw [h.owned]
    cases e.world.entity? x <;> simp
  simp only [triggersOf, List.mem_append, List.mem_map, List.mem_filter, Prod.exists,
    Std.ExtTreeMap.mem_toList_iff_getElem?_eq_some]
  constructor
  · rintro (hin | ⟨i, owner, ⟨hi, ho⟩, rfl⟩)
    · exact hlisted.1 hin
    · simp only [Bool.and_eq_true, decide_eq_true_eq] at ho
      rw [hi, ho.1]
  · intro ho
    exact .inl (hlisted.2 ho)

/-! ## Removing an entity -/

/-- Is it a trigger of the entity that listens? -/
def owns (e : Engine κ) (x : EntityId) : Subscriber → Bool
  | .trigger id => e.owners[id]? = some x
  | .handler _ => false

/-- An entity is gone, and with it all triggers that it owned, its actor and its first place in the
turn order. The other entities and triggers, and the rest of the engine, are as they were. -/
structure Departs (e : Engine κ) (x : EntityId) (removed : Entity) (e' : Engine κ) : Prop where
  record : ∃ r, e.world.entity? x = some r ∧ removed = { r with triggers := [] }
  entities : ∀ y, e'.world.entity? y = if y = x then none else e.world.entity? y
  tiles : ∀ p, e'.world.entitiesAt p = (e.world.entitiesAt p).filter (· ≠ x)
  slots : ∀ id : TriggerId, e'.shelf.slots[id]? =
    if e.owners[id]? = some x then none else e.shelf.slots[id]?
  origins : ∀ id : TriggerId, e'.roster.origins[id]? =
    if e.owners[id]? = some x then none else e.roster.origins[id]?
  owners : ∀ id : TriggerId, e'.owners[id]? = if e.owners[id]? = some x then none else e.owners[id]?
  heard : ∀ event, e'.listeners.subscribers event =
    (e.listeners.subscribers event).filter fun s => !e.owns x s
  handlers : e'.listeners.handlers = e.listeners.handlers
  actors : ∀ y, e'.actors[y]? = if y = x then none else e.actors[y]?
  participants : e'.order.participants = e.order.participants.erase x
  rest : e.SameRest { e' with order := e.order, actors := e.actors }

theorem filter_erase (l : List EntityId) : (l.erase x).filter (· ≠ x) = l.filter (· ≠ x) := by
  induction l with
  | nil => rfl
  | cons y l ih =>
    rw [List.erase_cons]
    by_cases hy : y = x
    · simp [hy]
    · simpa [hy] using ih

theorem notMem_erase {l : List EntityId} : x ∉ l.erase x ↔ l.count x ≤ 1 := by
  rw [← List.count_eq_zero, List.count_erase_self]
  omega

/-- An entity that is removed is taken off its tile, and no other tile has it. -/
theorem entitiesAt_remove {w w' : World} {record : Entity} (ha : w.Aligned)
    (h : w.remove? x = some (record, w')) (p : Position) :
    w'.entitiesAt p = (w.entitiesAt p).filter (· ≠ x) := by
  have hx := (World.remove?_eq_some h).1
  show w'.grid.occupants p = (w.grid.occupants p).filter (· ≠ x)
  rw [World.remove?_grid h, World.vacated]
  cases hpos : record.position with
  | none =>
    have hnowhere : x ∉ w.grid.occupants p := by
      rw [ha.stands, hx]
      simp [hpos]
    exact (TurnOrder.filter_ne_of_notMem hnowhere).symm
  | some q =>
    dsimp only
    rw [Grid.occupants_removeOccupant]
    split
    · rfl
    · rename_i hq
      have helsewhere : x ∉ w.grid.occupants p := by
        rw [ha.stands, hx]
        simp [hpos, hq]
      exact (TurnOrder.filter_ne_of_notMem helsewhere).symm

theorem Coherent.departs {removed : Entity} (h : e.Coherent (e.card? firing))
    (ha : e.world.Aligned) (hr : e.removeEntity x = .ok (removed, e')) :
    e.Departs x removed e' := by
  have hmem : ∀ id, id ∈ e.triggersOf x ↔ e.owners[id]? = some x := fun id => h.mem_triggersOf
  have hstripped : e.Stripped x (e.triggersOf x) (e.removeTriggers (e.triggersOf x)) := by
    refine stripped_removeTriggers (fun id hid => (hmem id).1 hid) fun id hid => ?_
    exact isSome_card?.symm.trans (h.stored id x ((hmem id).1 hid))
  have hapart := removeTriggers_apart (e := e) (e.triggersOf x)
  have hrest := removeTriggers_rest e (e.triggersOf x)
  have haligned := ha.steps (removeTriggers_relists (e := e) (e.triggersOf x)).steps
  obtain ⟨world, hw, rfl⟩ := removeEntity_eq_ok hr
  clear hr
  generalize e.removeTriggers (e.triggersOf x) = e₁ at *
  obtain ⟨hx, hothers⟩ := World.remove?_eq_some hw
  constructor
  · rw [hstripped.entities, Option.map_eq_some_iff] at hx
    obtain ⟨r, hr, rfl⟩ := hx
    have hnone : r.triggers.filter (· ∉ e.triggersOf x) = [] := by
      rw [List.filter_eq_nil_iff]
      intro id hid
      simpa using (hmem id).2 ((h.owned id x).2 ⟨r, hr, hid⟩)
    exact ⟨r, hr, by rw [if_pos rfl, hnone]⟩
  · intro y
    show world.entity? y = _
    rw [hothers, hstripped.entities]
    by_cases hy : y = x
    · simp [hy]
    · simp [hy, Ne.symm hy]
  · intro p
    have hat : e₁.world.entitiesAt p = e.world.entitiesAt p := by
      rw [World.entitiesAt, hstripped.grid, World.entitiesAt]
    exact (entitiesAt_remove haligned hw p).trans (by rw [hat])
  · simpa only [hmem] using hstripped.slots
  · simpa only [hmem] using hstripped.origins
  · simpa only [hmem] using hstripped.owners
  · intro event
    rw [hstripped.heard]
    refine List.filter_congr fun s _ => ?_
    cases s with
    | trigger id => simp [Subscriber.isAmong, owns, hmem]
    | handler id => rfl
  · exact hapart.handlers
  · intro y
    simp only [Std.ExtTreeMap.getElem?_erase, Std.LawfulEqCmp.compare_eq_iff_eq, hrest.actors]
    simp only [eq_comm]
  · rw [TurnOrder.participants_remove_eq_erase, hrest.order]
  · exact ⟨hrest.settings, hrest.clock, rfl, rfl, hrest.waiting, hrest.vocabulary, hrest.roller,
      hrest.gamemaster, hrest.audio⟩

/-- What comes of a removal, found by carrying it out. -/
theorem removeEntity_of_check (P : Engine κ → Prop) [DecidablePred P]
    (h : (match e.removeEntity x with
      | .ok (_, e') => decide (P e')
      | .error _ => false) = true) :
    ∃ removed e', e.removeEntity x = .ok (removed, e') ∧ P e' := by
  cases hr : e.removeEntity x with
  | error failure =>
    rw [hr] at h
    cases h
  | ok answer =>
    rw [hr] at h
    exact ⟨answer.1, answer.2, rfl, of_decide_eq_true h⟩

end Engine

/-! ## In every session of a run -/

namespace Session

/-- An entity that is removed has left everything but the turn order, and there its first place. It
is nowhere in the order if and only if it was listed once at most; the others keep their order in
any case. -/
theorem departure_clears {κ σ α : Type} (host : Host κ σ) (program : Program κ σ α)
    (world : WorldId) (settings : Settings) (state : σ) (budget : Nat)
    (hh : host.Within .keepsPlaces) (hp : program.Within .keepsPlaces)
    (hht : host.Within .keepsTables) (hpt : program.Within .keepsTables) (s : Session κ σ)
    (hs : s = (opening world settings state budget).reached host program) (x : EntityId)
    (removed : Entity) (e' : Engine κ) (hr : s.engine.removeEntity x = .ok (removed, e')) :
    s.engine.Departs x removed e' ∧
      e'.order.participants.filter (· ≠ x) = s.engine.order.participants.filter (· ≠ x) ∧
        (x ∉ e'.order.participants ↔ s.engine.order.participants.count x ≤ 1) := by
  subst hs
  obtain ⟨-, hd, h⟩ := tables_of_moves (reached_moves hht hpt)
  have ha := aligned_of_moves (reached_moves hh hp (s := opening world settings state budget))
  rw [funext (card?_eq hd)] at h
  have hdeparts := h.departs ha hr
  refine ⟨hdeparts, ?_, ?_⟩
  · rw [hdeparts.participants, Engine.filter_erase]
  · rw [hdeparts.participants, Engine.notMem_erase]

/-- Two entities share a tile, each has a trigger, and one of them an actor. The order is as
given. -/
def table (order : List EntityId) : Program Unit Unit Unit :=
  .perform (.change (.spawn "first" .npc)) fun first =>
    .perform (.change (.spawn "second" .npc)) fun second =>
      .perform (.change (.place first ⟨0, 0⟩)) fun _ =>
        .perform (.change (.place second ⟨0, 0⟩)) fun _ =>
          .perform (.change (.register first (.new "bell" .always (.alert "ring")))) fun _ =>
            .perform (.change (.register second (.new "bell" .always (.alert "ring")))) fun _ =>
              .perform (.change (.setActor first ())) fun _ =>
                .perform (.change (.setOrder order)) .done

theorem table_within (order : List EntityId) :
    (table order).Within .keepsPlaces ∧ (table order).Within .keepsTables := by
  constructor <;>
    exact ⟨trivial, fun _ => ⟨trivial, fun _ => ⟨trivial, fun _ => ⟨trivial, fun _ =>
      ⟨trivial, fun _ => ⟨trivial, fun _ => ⟨trivial, fun _ => ⟨trivial, fun _ => trivial⟩⟩⟩⟩⟩⟩⟩⟩

/-- So it is when one of two leaves, each of them being listed once. -/
theorem departure_clears_table : (Host.removing ⟨1⟩).Within .keepsPlaces ∧
    (table [⟨1⟩, ⟨2⟩]).Within .keepsPlaces ∧ (Host.removing ⟨1⟩).Within .keepsTables ∧
    (table [⟨1⟩, ⟨2⟩]).Within .keepsTables ∧ ∃ (s : Session Unit Unit) (removed : Entity)
      (e' : Engine Unit),
      s = (opening Engine.defaultWorld {} () 100).reached (.removing ⟨1⟩) (table [⟨1⟩, ⟨2⟩]) ∧
        s.engine.removeEntity ⟨1⟩ = .ok (removed, e') ∧ s.engine.owners[(⟨1⟩ : TriggerId)]? =
          some ⟨1⟩ ∧ s.engine.Departs ⟨1⟩ removed e' ∧ ⟨1⟩ ∉ e'.order.participants := by
  have hh : (Host.removing ⟨1⟩).Within .keepsPlaces := fun _ _ => ⟨trivial, fun _ => trivial⟩
  have hht : (Host.removing ⟨1⟩).Within .keepsTables := fun _ _ => ⟨trivial, fun _ => trivial⟩
  obtain ⟨hp, hpt⟩ := table_within [⟨1⟩, ⟨2⟩]
  obtain ⟨s, hs⟩ : ∃ s : Session Unit Unit, s = (opening Engine.defaultWorld {} () 100).reached
      (.removing ⟨1⟩) (table [⟨1⟩, ⟨2⟩]) := ⟨_, rfl⟩
  have howner : s.engine.owners[(⟨1⟩ : TriggerId)]? = some ⟨1⟩ := by
    rw [hs]
    decide +kernel
  have hcount : s.engine.order.participants.count ⟨1⟩ ≤ 1 := by
    rw [hs]
    decide +kernel
  obtain ⟨removed, e', hr, -⟩ := Engine.removeEntity_of_check (e := s.engine) (x := ⟨1⟩)
    (fun _ => True) (by rw [hs]; decide +kernel)
  obtain ⟨hdeparts, -, hgone⟩ :=
    departure_clears _ _ _ _ _ _ hh hp hht hpt s hs ⟨1⟩ removed e' hr
  exact ⟨hh, hp, hht, hpt, s, removed, e', hs, hr, howner, hdeparts, hgone.2 hcount⟩

/-- Who was listed twice is still listed. -/
theorem departure_leaves_place : ∃ (s : Session Unit Unit) (removed : Entity) (e' : Engine Unit),
    s = (opening Engine.defaultWorld {} () 100).reached (.removing ⟨1⟩)
      (table [⟨1⟩, ⟨2⟩, ⟨1⟩]) ∧
      s.engine.removeEntity ⟨1⟩ = .ok (removed, e') ∧ ⟨1⟩ ∈ e'.order.participants := by
  obtain ⟨s, hs⟩ : ∃ s : Session Unit Unit, s = (opening Engine.defaultWorld {} () 100).reached
      (.removing ⟨1⟩) (table [⟨1⟩, ⟨2⟩, ⟨1⟩]) := ⟨_, rfl⟩
  obtain ⟨removed, e', hr, hstays⟩ := Engine.removeEntity_of_check (e := s.engine) (x := ⟨1⟩)
    (fun e' => ⟨1⟩ ∈ e'.order.participants) (by rw [hs]; decide +kernel)
  exact ⟨s, removed, e', hs, hr, hstays⟩

end Session

end Encounter
