import Encounter.Proofs.Moves
import Encounter.Proofs.Removal

/-!
# The five tables agree

`Engine.Coherent card e`: the roster, the subscriptions, the owners and the lists of the entities of
`e` say the same about every trigger, namely what its card says, and about a number without a card
they say nothing. The cards are those of the triggers with a slot (`Engine.card?`); the card of a
firing trigger has to be supplied. `Engine.Attuned` is the part of it that the roster and the
listeners have to do with; it does not matter to it what becomes of the entities and their lists.

Every operation on triggers keeps the tables in step: `Coherent.registerGlobal`, `Coherent.attach`,
`Coherent.removeTrigger` for one trigger, and from them registering, loading, removing an entity and
removing all. `Coherent.change` puts them together.
-/

set_option autoImplicit false

namespace Encounter

/-- What the tables say about a trigger. -/
structure Card where
  event : String
  origin : String

/-- The card of a trigger. -/
def Trigger.card {κ : Type} (t : Trigger κ) : Card :=
  ⟨t.event, t.head.source.getD Roster.unknown⟩

namespace Engine

variable {κ : Type}

/-- The card of the trigger of a number, if it has a slot; `firing` gives the cards of those that
are not in their slots. -/
def card? (firing : TriggerId → Card) (e : Engine κ) (id : TriggerId) : Option Card :=
  e.shelf.slots[id]?.map fun slot => (slot.map Trigger.card).getD (firing id)

/-- The roster and the listeners agree with the cards: who has one is live, and listens to its event
and to no other. -/
structure Attuned (card : TriggerId → Option Card) (e : Engine κ) : Prop where
  live : ∀ id, e.roster.contains id = (card id).isSome
  heard : ∀ id event, .trigger id ∈ e.listeners.subscribers event ↔
    (card id).map Card.event = some event

/-- The tables agree with the cards, and with one another. -/
structure Coherent (card : TriggerId → Option Card) (e : Engine κ) : Prop where
  live : ∀ id, e.roster.origins[id]? = (card id).map Card.origin
  heard : ∀ id event, .trigger id ∈ e.listeners.subscribers event ↔
    (card id).map Card.event = some event
  once : e.listeners.UniqueLists
  owned : ∀ id x, e.owners[id]? = some x ↔
    ∃ record, e.world.entity? x = some record ∧ id ∈ record.triggers
  stored : ∀ id x, e.owners[id]? = some x → (card id).isSome = true
  lists : ∀ x record, e.world.entity? x = some record → record.triggers.Nodup

variable {firing : TriggerId → Card} {card card' : TriggerId → Option Card} {e e' : Engine κ}
  {x y : EntityId} {id i : TriggerId} {t : Trigger κ}

/-! ## Cards -/

theorem isSome_card? : (e.card? firing id).isSome = e.shelf.contains id := by
  rw [card?, Option.isSome_map, Shelf.contains_eq]

theorem card?_eq_none : e.card? firing id = none ↔ e.shelf.contains id = false := by
  rw [← @isSome_card? κ firing e id, Option.isSome_eq_false_iff, Option.isNone_iff_eq_none]

theorem card?_of_get? (h : e.shelf.get? id = some t) : e.card? firing id = some t.card := by
  rw [card?, Shelf.get?_eq_some.1 h]
  rfl

theorem card?_of_slot (h : e'.shelf.slots[id]? = e.shelf.slots[id]?) :
    e'.card? firing id = e.card? firing id := by
  rw [card?, card?, h]

theorem card?_registerGlobal : (e.registerGlobal t).2.card? firing =
    fun i => if (⟨e.shelf.nextId⟩ : TriggerId) = i then some t.card else e.card? firing i := by
  funext i
  rw [card?, registerGlobal_shelf, Shelf.slots_insert]
  split <;> rfl

theorem card?_removeTrigger {answer : Option (Trigger κ)}
    (hr : e.removeTrigger id = .ok (answer, e')) :
    e'.card? firing = fun i => if id = i then none else e.card? firing i := by
  obtain ⟨-, -, rfl⟩ := removeTrigger_eq_ok.1 hr
  funext i
  rw [card?, Shelf.slots_remove]
  split <;> rfl

/-! ## Roster and listeners -/

namespace Attuned

/-- Tables that say the same are as attuned, whatever becomes of the origins on the cards. -/
theorem congr (h : e.Attuned card) (hr : e'.roster = e.roster)
    (hs : ∀ id event, .trigger id ∈ e'.listeners.subscribers event ↔
      .trigger id ∈ e.listeners.subscribers event)
    (hc : ∀ id, (card' id).map Card.event = (card id).map Card.event) : e'.Attuned card' := by
  refine ⟨fun id => ?_, fun id event => ?_⟩
  · rw [hr, h.live, ← Option.isSome_map (f := Card.event), ← hc, Option.isSome_map]
  · rw [hs, hc]
    exact h.heard id event

/-- What has a card and waits on the shelf is live and listens, so activating it changes nothing. -/
theorem activate_eq_self (h : e.Attuned (e.card? firing)) (id : TriggerId) :
    e.activate id = e := by
  cases hget : e.shelf.get? id with
  | none => exact activate_of_none hget
  | some t =>
    have hcard : e.card? firing id = some t.card := card?_of_get? hget
    refine Engine.activate_eq_self hget ?_ ?_
    · rw [h.live, hcard]
      rfl
    · rw [h.heard, hcard]
      rfl

theorem registerGlobal (h : e.Attuned (e.card? firing))
    (hnew : e.shelf.contains ⟨e.shelf.nextId⟩ = false) :
    (e.registerGlobal t).2.Attuned ((e.registerGlobal t).2.card? firing) := by
  have hnone : e.card? firing ⟨e.shelf.nextId⟩ = none := card?_eq_none.2 hnew
  rw [card?_registerGlobal, registerGlobal_eq, activate_of_get? Shelf.get?_insert]
  refine ⟨fun i => ?_, fun i event => ?_⟩
  · rw [Bool.eq_iff_iff, contains_add_iff, h.live]
    by_cases hi : (⟨e.shelf.nextId⟩ : TriggerId) = i
    · simp [hi]
    · simp [hi, Ne.symm hi]
  · rw [Listeners.mem_subscribe, h.heard]
    by_cases hi : (⟨e.shelf.nextId⟩ : TriggerId) = i
    · subst hi
      simp [hnone, Trigger.card]
    · simp [hi, Ne.symm hi]

theorem attach (h : e.Attuned (e.card? firing)) (ha : e.attach x id = .ok e') :
    e'.Attuned (e'.card? firing) := by
  obtain ⟨-, -, rfl⟩ := attach_eq_ok.1 ha
  rw [activate_with, h.activate_eq_self]
  exact ⟨h.live, h.heard⟩

theorem removeTrigger {answer : Option (Trigger κ)} (h : e.Attuned (e.card? firing))
    (hr : e.removeTrigger id = .ok (answer, e')) : e'.Attuned (e'.card? firing) := by
  rw [card?_removeTrigger hr]
  obtain ⟨-, -, rfl⟩ := removeTrigger_eq_ok.1 hr
  refine ⟨fun i => ?_, fun i event => ?_⟩
  · rw [Roster.contains, Roster.remove, Std.ExtTreeMap.contains_erase]
    by_cases hi : id = i
    · subst hi
      simp
    · rw [if_neg hi, ← h.live]
      simp [hi, Roster.contains]
  · rw [Listeners.mem_unsubscribeAll, h.heard]
    by_cases hi : id = i
    · subst hi
      simp
    · simp [hi, Ne.symm hi]

theorem removeTriggers (h : e.Attuned (e.card? firing)) (ids : List TriggerId) :
    (e.removeTriggers ids).Attuned ((e.removeTriggers ids).card? firing) :=
  removeTriggers_keeps (P := fun e => e.Attuned (e.card? firing))
    (fun _ _ _ _ h hr => h.removeTrigger hr) ids e h

/-- Once all live triggers are removed, there is none left. -/
theorem card?_removeTriggers_roster (h : e.Attuned (e.card? firing)) (id : TriggerId) :
    (e.removeTriggers e.roster.toList).card? firing id = none := by
  rw [card?_eq_none, ← Bool.not_eq_true]
  intro hin
  have hbefore : e.shelf.contains id = true := by
    rw [Shelf.contains_eq] at hin ⊢
    rcases (removeTriggers_loses e.roster.toList).2 id with hs | hs
    · rw [← hs]
      exact hin
    · rw [hs] at hin
      cases hin
  have hlive : id ∈ e.roster.toList := by
    rw [Roster.toList, Std.ExtTreeMap.mem_keys, ← Std.ExtTreeMap.contains_iff_mem]
    exact (h.live id).trans (isSome_card?.trans hbefore)
  rw [not_contains_removeTriggers hlive] at hin
  cases hin

theorem resetEvents (h : e.Attuned (e.card? firing)) :
    e.resetEvents.Attuned (e.resetEvents.card? firing) := by
  have hrest := h.removeTriggers e.roster.toList
  refine ⟨hrest.live, fun id event => ?_⟩
  show .trigger id ∈ (Listeners.reset _).subscribers event ↔
    ((e.removeTriggers e.roster.toList).card? firing id).map Card.event = some event
  rw [Listeners.subscribers_reset, h.card?_removeTriggers_roster]
  simp

end Attuned

theorem Coherent.attuned (h : e.Coherent card) : e.Attuned card :=
  ⟨fun id => by rw [Roster.contains, Std.ExtTreeMap.contains_eq_isSome_getElem?, h.live,
    Option.isSome_map], h.heard⟩

/-! ## Frames -/

namespace Coherent

/-- Tables that say the same are as coherent. -/
theorem congr (h : e.Coherent card) (hr : e'.roster = e.roster) (ho : e'.owners = e.owners)
    (ht : ∀ x, (e'.world.entity? x).map (·.triggers) = (e.world.entity? x).map (·.triggers))
    (hs : ∀ id event, .trigger id ∈ e'.listeners.subscribers event ↔
      .trigger id ∈ e.listeners.subscribers event)
    (hu : e'.listeners.UniqueLists) (hc : ∀ id, card' id = card id) : e'.Coherent card' := by
  have hcard : card' = card := funext hc
  subst hcard
  have hback : ∀ x record', e'.world.entity? x = some record' →
      ∃ record, e.world.entity? x = some record ∧ record.triggers = record'.triggers := by
    intro x record' hx
    have h := ht x
    rw [hx] at h
    exact Option.map_eq_some_iff.1 h.symm
  have hforth : ∀ x record, e.world.entity? x = some record →
      ∃ record', e'.world.entity? x = some record' ∧ record'.triggers = record.triggers := by
    intro x record hx
    have h := ht x
    rw [hx] at h
    exact Option.map_eq_some_iff.1 h
  refine ⟨?_, ?_, hu, ?_, ?_, ?_⟩
  · rw [hr]
    exact h.live
  · intro id event
    rw [hs]
    exact h.heard id event
  · intro id x
    rw [ho, h.owned]
    constructor
    · rintro ⟨record, hx, hid⟩
      obtain ⟨record', hx', heq⟩ := hforth x record hx
      exact ⟨record', hx', heq ▸ hid⟩
    · rintro ⟨record', hx', hid⟩
      obtain ⟨record, hx, heq⟩ := hback x record' hx'
      exact ⟨record, hx, heq ▸ hid⟩
  · rw [ho]
    exact h.stored
  · intro x record' hx'
    obtain ⟨record, hx, heq⟩ := hback x record' hx'
    exact heq ▸ h.lists x record hx

theorem sameTables (h : e.Coherent card) (hs : e.SameTables e') (hc : ∀ id, card' id = card id) :
    e'.Coherent card' := by
  refine h.congr hs.roster hs.owners hs.triggers ?_ ?_ hc <;> rw [hs.listeners]
  · exact fun _ _ => Iff.rfl
  · exact h.once

end Coherent

/-! ## Lists of entities -/

theorem entity?_handOver : (e.handOver x id).entity? y = (e.world.entity? y).map fun r =>
    if y = x then r.attach id else if e.owners[id]? = some y then r.detach id else r := by
  have hx : (e.world.modifyEntity x (·.attach id)).entity? y =
      (e.world.entity? y).map fun r => if y = x then r.attach id else r := by
    rw [World.entity?_modifyEntity]
    by_cases hy : y = x
    · rw [if_pos hy.symm]
      simp only [if_pos hy]
    · rw [if_neg fun h => hy h.symm]
      simp only [if_neg hy, Option.map_id']
  unfold handOver
  cases e.owners[id]? with
  | none => simpa using hx
  | some owner =>
    dsimp only
    split
    · rename_i ho
      subst ho
      rw [hx]
      congr 1
      funext r
      split
      · rfl
      · rename_i hy
        rw [if_neg fun h => hy (Option.some.inj h).symm]
    · rename_i ho
      rw [World.entity?_modifyEntity, hx]
      by_cases hy : owner = y
      · subst hy
        simp [ho]
      · simp [hy]

theorem entity?_detach : (e.detach id).entity? y = (e.world.entity? y).map fun r =>
    if e.owners[id]? = some y then r.detach id else r := by
  unfold detach
  cases e.owners[id]? with
  | none => simp
  | some owner =>
    dsimp only
    rw [World.entity?_modifyEntity]
    by_cases hy : owner = y
    · simp [hy]
    · simp [hy]

/-- Entities rewritten without regard to a trigger have it as before. -/
theorem exists_mem_map {o : Option Entity} {f : Entity → Entity}
    (hf : ∀ r, i ∈ (f r).triggers ↔ i ∈ r.triggers) :
    (∃ r', o.map f = some r' ∧ i ∈ r'.triggers) ↔ ∃ r, o = some r ∧ i ∈ r.triggers := by
  cases o with
  | none => simp
  | some r => simp [hf]

/-! ## Operations on one trigger -/

namespace Coherent

theorem registerGlobal (h : e.Coherent (e.card? firing))
    (hnew : e.shelf.contains ⟨e.shelf.nextId⟩ = false) :
    (e.registerGlobal t).2.Coherent ((e.registerGlobal t).2.card? firing) := by
  have hheard := (h.attuned.registerGlobal (t := t) hnew).heard
  have hdead : e.roster.contains ⟨e.shelf.nextId⟩ = false := by
    rw [h.attuned.live, card?_eq_none.2 hnew]
    rfl
  rw [card?_registerGlobal, registerGlobal_eq, activate_of_get? Shelf.get?_insert] at hheard ⊢
  refine ⟨fun i => ?_, hheard, h.once.subscribe, h.owned, fun i x hi => ?_, h.lists⟩
  · simp only [Roster.add, hdead, Bool.false_eq_true, if_false, Std.ExtTreeMap.getElem?_insert,
      Std.LawfulEqCmp.compare_eq_iff_eq]
    split
    · rfl
    · exact h.live i
  · split
    · rfl
    · exact h.stored i x hi

theorem attach (h : e.Coherent (e.card? firing)) (ha : e.attach x id = .ok e') :
    e'.Coherent (e'.card? firing) := by
  obtain ⟨hid, ⟨record, hx⟩, rfl⟩ := attach_eq_ok.1 ha
  rw [activate_with, h.attuned.activate_eq_self]
  refine ⟨h.live, h.heard, h.once, fun i y => ?_, fun i y hi => ?_, fun y record' hy => ?_⟩
  · simp only [Std.ExtTreeMap.getElem?_insert, Std.LawfulEqCmp.compare_eq_iff_eq, entity?_handOver]
    by_cases hi : id = i
    · subst hi
      rw [if_pos rfl]
      constructor
      · intro hy
        cases hy
        exact ⟨record.attach id, by rw [hx]; simp, Entity.mem_attach.2 (.inl rfl)⟩
      · rintro ⟨r', hr', hm⟩
        obtain ⟨r, hr, rfl⟩ := Option.map_eq_some_iff.1 hr'
        by_cases hy : y = x
        · rw [hy]
        · rw [if_neg hy] at hm
          split at hm
          · exact absurd rfl (Entity.mem_detach.1 hm).1
          · rename_i ho
            exact absurd ((h.owned id y).2 ⟨r, hr, hm⟩) ho
    · rw [if_neg hi, h.owned, exists_mem_map]
      intro r
      split
      · rw [Entity.mem_attach, or_iff_right (Ne.symm hi)]
      · split
        · rw [Entity.mem_detach, and_iff_right (Ne.symm hi)]
        · rfl
  · simp only [Std.ExtTreeMap.getElem?_insert, Std.LawfulEqCmp.compare_eq_iff_eq] at hi
    split at hi
    · rename_i heq
      subst heq
      exact isSome_card?.trans hid
    · exact h.stored i y hi
  · rw [entity?_handOver] at hy
    obtain ⟨r, hr, rfl⟩ := Option.map_eq_some_iff.1 hy
    have hn := h.lists y r hr
    split
    · exact Entity.nodup_attach hn
    · split
      · exact Entity.nodup_detach hn
      · exact hn

theorem removeTrigger {answer : Option (Trigger κ)} (h : e.Coherent (e.card? firing))
    (hr : e.removeTrigger id = .ok (answer, e')) : e'.Coherent (e'.card? firing) := by
  have hheard := (h.attuned.removeTrigger hr).heard
  rw [card?_removeTrigger hr] at hheard ⊢
  obtain ⟨-, -, rfl⟩ := removeTrigger_eq_ok.1 hr
  refine ⟨fun i => ?_, hheard, h.once.unsubscribeAll, fun i y => ?_, fun i y hi => ?_,
    fun y record' hy => ?_⟩
  · simp only [Roster.remove, Std.ExtTreeMap.getElem?_erase, Std.LawfulEqCmp.compare_eq_iff_eq]
    split
    · rfl
    · exact h.live i
  · simp only [Std.ExtTreeMap.getElem?_erase, Std.LawfulEqCmp.compare_eq_iff_eq, entity?_detach]
    by_cases hi : id = i
    · subst hi
      rw [if_pos rfl]
      refine iff_of_false (by simp) ?_
      rintro ⟨r', hr', hm⟩
      obtain ⟨r, hr, rfl⟩ := Option.map_eq_some_iff.1 hr'
      split at hm
      · exact (Entity.mem_detach.1 hm).1 rfl
      · rename_i ho
        exact ho ((h.owned id y).2 ⟨r, hr, hm⟩)
    · rw [if_neg hi, h.owned, exists_mem_map]
      intro r
      split
      · rw [Entity.mem_detach, and_iff_right (Ne.symm hi)]
      · rfl
  · simp only [Std.ExtTreeMap.getElem?_erase, Std.LawfulEqCmp.compare_eq_iff_eq] at hi
    split at hi
    · cases hi
    · rename_i hne
      rw [if_neg hne]
      exact h.stored i y hi
  · rw [entity?_detach] at hy
    obtain ⟨r, hr, rfl⟩ := Option.map_eq_some_iff.1 hy
    have hn := h.lists y r hr
    split
    · exact Entity.nodup_detach hn
    · exact hn

/-! ## Operations on several triggers -/

theorem register (h : e.Coherent (e.card? firing)) (hnew : e.shelf.contains id = false)
    (hr : e.register x t = .ok (id, e')) : e'.Coherent (e'.card? firing) := by
  obtain ⟨t', -, rfl, ha⟩ := register_eq_ok hr
  exact (h.registerGlobal hnew).attach ha

theorem registerAll {triggers : List (Trigger κ)} {ids : List TriggerId}
    (hr : e.registerAll x triggers = .ok (ids, e')) (h : e.Coherent (e.card? firing))
    (hids : ids.Nodup) (hnew : ∀ id ∈ ids, e.shelf.contains id = false) :
    e'.Coherent (e'.card? firing) :=
  registerAll_keeps (P := fun e => e.Coherent (e.card? firing))
    (fun _ _ _ _ h hnew hr => h.register hnew hr) hr h hids hnew

/-- Removing triggers gives none a new owner. -/
theorem owner_of_removeTriggers (ids : List TriggerId)
    (h : (e.removeTriggers ids).owners[i]? = some y) : e.owners[i]? = some y := by
  refine removeTriggers_keeps
    (P := fun e' : Engine κ => e'.owners[i]? = some y → e.owners[i]? = some y) ?_ ids e
    (fun h => h) h
  intro e₁ j answer e₂ h₁ hr hi
  obtain ⟨-, -, rfl⟩ := removeTrigger_eq_ok.1 hr
  simp only [Std.ExtTreeMap.getElem?_erase] at hi
  split at hi
  · cases hi
  · exact h₁ hi

theorem removeTriggers (h : e.Coherent (e.card? firing)) (ids : List TriggerId) :
    (e.removeTriggers ids).Coherent ((e.removeTriggers ids).card? firing) :=
  removeTriggers_keeps (P := fun e => e.Coherent (e.card? firing))
    (fun _ _ _ _ h hr => h.removeTrigger hr) ids e h

/-- An entity that comes without triggers. -/
theorem newcomer {world : World} {record : Entity} (h : e.Coherent card)
    (hx : e.world.entity? x = none) (hr : record.triggers = [])
    (hw : ∀ y, world.entity? y = if x = y then some record else e.world.entity? y) :
    ({ e with world } : Engine κ).Coherent card := by
  refine ⟨h.live, h.heard, h.once, fun i y => ?_, h.stored, fun y r hy => ?_⟩
  · rw [h.owned, hw]
    by_cases hy : x = y
    · subst hy
      rw [if_pos rfl, hx]
      simp [hr]
    · rw [if_neg hy]
  · rw [hw] at hy
    split at hy
    · cases hy
      rw [hr]
      exact List.nodup_nil
    · exact h.lists y r hy

/-- An entity that leaves, once it has no triggers. -/
theorem leaver {world : World} (h : e.Coherent card)
    (hx : ∀ record, e.world.entity? x = some record → record.triggers = [])
    (hw : ∀ y, world.entity? y = if x = y then none else e.world.entity? y) :
    ({ e with world } : Engine κ).Coherent card := by
  refine ⟨h.live, h.heard, h.once, fun i y => ?_, h.stored, fun y r hy => ?_⟩
  · rw [h.owned, hw]
    by_cases hy : x = y
    · subst hy
      rw [if_pos rfl]
      refine iff_of_false ?_ (by simp)
      rintro ⟨record, hrec, hi⟩
      rw [hx record hrec] at hi
      cases hi
    · rw [if_neg hy]
  · rw [hw] at hy
    split at hy
    · cases hy
    · exact h.lists y r hy

/-- Once its triggers are removed, an entity has none. -/
theorem no_triggers (h : e.Coherent (e.card? firing)) {record : Entity}
    (hx : (e.removeTriggers (e.triggersOf x)).world.entity? x = some record) :
    record.triggers = [] := by
  have hrest := h.removeTriggers (e.triggersOf x)
  refine List.eq_nil_iff_forall_not_mem.2 fun id hid => ?_
  have howned := (hrest.owned id x).2 ⟨record, hx, hid⟩
  obtain ⟨r, hr, hm⟩ := (h.owned id x).1 (owner_of_removeTriggers _ howned)
  have hlisted : id ∈ e.triggersOf x := by
    simp only [triggersOf, hr, Option.map_some, Option.getD_some, List.mem_append]
    exact .inl hm
  have hin := hrest.stored id x howned
  rw [isSome_card?, not_contains_removeTriggers hlisted] at hin
  cases hin

theorem removeEntity {removed : Entity} (h : e.Coherent (e.card? firing))
    (hr : e.removeEntity x = .ok (removed, e')) : e'.Coherent (e'.card? firing) := by
  obtain ⟨world, hw, rfl⟩ := removeEntity_eq_ok hr
  have hl := (h.removeTriggers (e.triggersOf x)).leaver (fun _ => h.no_triggers)
    (World.remove?_eq_some hw).2
  exact ⟨hl.live, hl.heard, hl.once, hl.owned, hl.stored, hl.lists⟩

theorem resetEvents (h : e.Coherent (e.card? firing)) :
    e.resetEvents.Coherent (e.resetEvents.card? firing) := by
  have hrest := h.removeTriggers e.roster.toList
  exact ⟨hrest.live, h.attuned.resetEvents.heard, Listeners.uniqueLists_reset, hrest.owned,
    hrest.stored, hrest.lists⟩

theorem load {record : Json} {ids : List TriggerId} (h : e.Coherent (e.card? firing))
    (hfull : e.world.isFull = false) (hids : ids.Nodup)
    (hnew : ∀ id ∈ ids, e.shelf.contains id = false)
    (hr : e.load record = .ok ((x, ids), e')) : e'.Coherent (e'.card? firing) := by
  obtain ⟨name, kind, stats, triggers, -, rfl, hall⟩ := load_eq_ok hr
  have hspawn := h.newcomer (World.spawn_id name kind hfull) rfl fun _ =>
    World.entity?_spawn name kind
  have hstats := hspawn.sameTables
    (sameTables_modifyEntity (x := (e.world.spawn name kind).1) (f := fun r => { r with stats })
      fun _ => rfl) fun _ => rfl
  exact registerAll hall hstats hids hnew

theorem quiet (h : e.Coherent (e.card? firing)) (hs : e.SameTables e') :
    e'.Coherent (e'.card? firing) :=
  h.sameTables hs fun _ => card?_of_slot (by rw [hs.shelf])

/-- Listeners that hear the same of triggers. -/
theorem listeners {listeners : Listeners κ} (h : e.Coherent card)
    (hs : ∀ id event, .trigger id ∈ listeners.subscribers event ↔
      .trigger id ∈ e.listeners.subscribers event)
    (hu : listeners.UniqueLists) : ({ e with listeners } : Engine κ).Coherent card :=
  h.congr rfl rfl (fun _ => rfl) hs hu fun _ => rfl

end Coherent

end Engine

/-! ## Changes -/

/-- Does the change leave the lists of the entities, and the events and origins of the triggers, to
the operations on triggers? -/
def Change.KeepsTables {κ α : Type} : Change κ α → Prop
  | .insert record => record.triggers = []
  | .edit _ f => ∀ record, (f record).triggers = record.triggers
  | .editTrigger _ f => ∀ t, (f t).card = t.card
  | _ => True

open Engine in
/-- Every such change keeps the tables in step, if the numbers that it gives are new. -/
theorem Engine.Coherent.change {κ α : Type} {firing : TriggerId → Card} {e : Engine κ}
    (c : Change κ α) (h : e.Coherent (e.card? firing)) (hk : c.KeepsTables)
    (hend : c.isEndless e = false) (hids : (c.stored e).Nodup)
    (hnew : ∀ id ∈ c.stored e, e.shelf.contains id = false) :
    (c.apply e).2.Coherent ((c.apply e).2.card? firing) := by
  have hrefuse : ∀ {β : Type} {r : Except Failure (β × Engine κ)},
      (∀ b e', r = .ok (b, e') → e'.Coherent (e'.card? firing)) →
        (e.orRefuse r).2.Coherent ((e.orRefuse r).2.card? firing) := fun hr =>
    orRefuse_cases (P := fun e' => e'.Coherent (e'.card? firing)) h hr
  have hworld : ∀ {β : Type} {r : Except Failure (β × World)},
      (∀ b world, r = .ok (b, world) → ({ e with world } : Engine κ).Coherent (e.card? firing)) →
        (e.onWorldOrRefuse r).2.Coherent ((e.onWorldOrRefuse r).2.card? firing) := fun hr =>
    onWorldOrRefuse_cases (P := fun e' => e'.Coherent (e'.card? firing)) h hr
  cases c with
  | spawn name kind =>
    exact h.newcomer (World.spawn_id name kind hend) rfl fun _ => World.entity?_spawn name kind
  | insert record =>
    refine hworld fun x world hw => ?_
    obtain ⟨-, hx, hget⟩ := World.insert_eq_ok hw
    exact h.newcomer hx hk hget
  | edit x f => exact h.quiet (sameTables_modifyEntity hk)
  | damage x amount => exact h.quiet (sameTables_modifyEntity fun _ => rfl)
  | place x p =>
    refine hworld fun _ world hw => h.sameTables ⟨rfl, rfl, rfl, rfl, ?_⟩ fun _ => rfl
    obtain ⟨w, hw, he⟩ := map_eq_ok.1 hw
    cases he
    exact World.place_triggers hw
  | move x p =>
    refine hworld fun moved world hw => h.sameTables ⟨rfl, rfl, rfl, rfl, ?_⟩ fun _ => rfl
    exact World.move_triggers hw
  | removeEntity x => exact hrefuse fun _ _ => h.removeEntity
  | register x t =>
    refine hrefuse fun id e' hr => h.register (hnew id ?_) hr
    rw [Change.stored_register hr]
    exact List.mem_singleton_self id
  | registerGlobal t => exact h.registerGlobal (hnew _ (List.mem_singleton_self _))
  | attach x id =>
    refine hrefuse fun _ e' hr => ?_
    obtain ⟨e₁, ha, he⟩ := map_eq_ok.1 hr
    cases he
    exact h.attach ha
  | removeTrigger id => exact hrefuse fun _ _ => h.removeTrigger
  | editTrigger id f =>
    refine h.congr rfl rfl (fun _ => rfl) (fun _ _ => Iff.rfl) h.once fun i => ?_
    show (({ e with shelf := e.shelf.modify id f } : Engine κ).card? firing i) = _
    rw [card?, card?, Shelf.slots_modify]
    split
    · rcases e.shelf.slots[i]? with _ | _ | t
      · rfl
      · rfl
      · exact congrArg some (hk t)
    · rfl
  | addPresets x =>
    refine hrefuse fun ids e' hr => ?_
    rw [Change.stored_addPresets hr] at hids hnew
    obtain ⟨_, -, hall⟩ := addPresets_eq_ok hr
    exact registerAll hall h hids hnew
  | load record =>
    refine hrefuse fun x e' hr => ?_
    obtain ⟨⟨⟨x, ids⟩, e₁⟩, hl, he⟩ := map_eq_ok.1 hr
    cases he
    rw [Change.stored_load hl] at hids hnew
    have hfull : e.world.isFull = false := by
      simpa [Change.isEndless, hl, Except.isOk, Except.toBool] using hend
    exact h.load hfull hids hnew hl
  | resetEvents => exact h.resetEvents
  | addHandler code => exact h.listeners (fun _ _ => Iff.rfl) h.once
  | removeHandler handler =>
    exact h.listeners (fun _ _ => Listeners.trigger_mem_removeHandler) h.once.removeHandler
  | subscribe event handler =>
    exact h.listeners (fun _ _ => Listeners.trigger_mem_subscribe) h.once.subscribe
  | unsubscribe event handler =>
    exact h.listeners (fun _ _ => Listeners.trigger_mem_unsubscribe) h.once.unsubscribe
  | dequeue => exact h.quiet (sameTables_dequeue e)
  | addConditionType | addReactionType | nameCondition | nameReaction =>
    refine hrefuse fun _ e' hr => ?_
    obtain ⟨_, -, he⟩ := map_eq_ok.1 hr
    cases he
    exact h.quiet (.of_world rfl rfl rfl rfl rfl)
  | _ => exact h.quiet ⟨rfl, rfl, rfl, rfl, fun _ => rfl⟩

end Encounter
