import Encounter.Proofs.Enlisting
import Encounter.Proofs.Growth
import Encounter.Proofs.Refusal
import Encounter.Proofs.Saving

/-!
# Copies of entities

What is loaded from the record of an entity is a copy of it, as far as records go: an entity of the
same name, kind and stats under a new number, with the same triggers, not fired yet, under new
numbers. Nothing else changes but the lists of subscribers, and these only at their ends
(`Session.saved_entity_returns`).

A trigger of the entity has to say where it comes from, or its copy would come from the name of the
entity. It does so if it was registered for an entity and not edited since
(`Session.Pristine.source`).
-/

set_option autoImplicit false

namespace Encounter

/-! ## Where a trigger comes from -/

namespace Engine

variable {κ : Type} {e e' : Engine κ} {x : EntityId} {id i : TriggerId}

/-- The trigger is on the shelf, and says where it comes from. -/
def HasSource (e : Engine κ) (id : TriggerId) : Prop :=
  ∃ t, e.shelf.get? id = some t ∧ t.head.source.isSome = true

theorem register_shelf {t : Trigger κ} (h : e.register x t = .ok (id, e')) :
    ∃ source, id = ⟨e.shelf.nextId⟩ ∧
      e'.shelf = (e.shelf.insert (t.withSource (some source))).2 := by
  unfold register at h
  split at h
  · cases h
  · obtain ⟨e₂, hattach, h⟩ := bind_eq_ok.1 h
    cases h
    exact ⟨_, rfl, attach_shelf hattach⟩

/-- A trigger that is registered for an entity says where it comes from. -/
theorem register_hasSource {t : Trigger κ} (h : e.register x t = .ok (id, e'))
    (hi : i = id ∨ e.HasSource i) : e'.HasSource i := by
  obtain ⟨source, rfl, hshelf⟩ := register_shelf h
  unfold HasSource
  rw [hshelf, Shelf.get?_eq, Shelf.slots_insert]
  split
  · exact ⟨_, rfl, rfl⟩
  · rename_i hne
    rcases hi with rfl | hi
    · exact absurd rfl hne
    · exact hi

theorem registerAll_hasSource {triggers : List (Trigger κ)} {ids : List TriggerId}
    (h : e.registerAll x triggers = .ok (ids, e')) (hi : i ∈ ids ∨ e.HasSource i) :
    e'.HasSource i := by
  induction triggers generalizing e ids with
  | nil =>
    cases h
    exact hi.resolve_left List.not_mem_nil
  | cons t rest ih =>
    obtain ⟨id, e₁, ids', h₁, h₂, rfl⟩ := registerAll_cons_eq_ok h
    refine ih h₂ ?_
    rcases hi with hi | hi
    · rcases List.mem_cons.1 hi with rfl | hi
      · exact .inr (register_hasSource h₁ (.inl rfl))
      · exact .inl hi
    · exact .inr (register_hasSource h₁ (.inr hi))

end Engine

/-- Does the change register triggers for an entity? -/
def Change.IsForEntity {κ α : Type} : Change κ α → Prop
  | .register .. | .addPresets _ | .load _ => True
  | _ => False

theorem Change.hasSource {κ α : Type} {c : Change κ α} {e : Engine κ} {id : TriggerId}
    (hc : c.IsForEntity) (hid : id ∈ c.stored e) : (c.apply e).2.HasSource id := by
  cases c with
  | register x t =>
    simp only [stored, apply] at hid ⊢
    cases hr : e.register x t with
    | error failure =>
      rw [hr] at hid
      cases hid
    | ok p =>
      rw [hr] at hid
      exact Engine.register_hasSource hr (.inl (List.mem_singleton.1 hid))
  | addPresets x =>
    simp only [stored, apply] at hid ⊢
    cases hr : e.addPresets x with
    | error failure =>
      rw [hr] at hid
      cases hid
    | ok p =>
      rw [hr] at hid
      obtain ⟨_, -, hall⟩ := Engine.addPresets_eq_ok hr
      exact Engine.registerAll_hasSource hall (.inl hid)
  | load record =>
    simp only [stored, apply] at hid ⊢
    cases hr : e.load record with
    | error failure =>
      rw [hr] at hid
      cases hid
    | ok p =>
      rw [hr] at hid
      obtain ⟨name, kind, stats, triggers, -, -, hall⟩ := Engine.load_eq_ok hr
      exact Engine.registerAll_hasSource hall (.inl hid)
  | _ => cases hc

namespace Session

section
variable {κ σ α : Type} {start s : Session κ σ} {id : TriggerId}

/-- The session after a change. -/
def after (s : Session κ σ) (c : Change κ α) : Session κ σ := { s with
  engine := (c.apply s.engine).2
  journal := c.notices s.engine (c.apply s.engine).2 ++ s.journal }

theorem moves_after (hs : Moves .free start s) (c : Change κ α)
    (hend : c.isEndless s.engine = false) (hfit : c.overflows s.engine = false) :
    Moves .free start (s.after c) :=
  hs.tail (.change c (.asked trivial) hend hfit)

/-- The trigger was registered for an entity after `start`, and was neither edited nor removed
since. -/
inductive Pristine (start : Session κ σ) (id : TriggerId) : Session κ σ → Prop
  | registered {s : Session κ σ} {α : Type} (c : Change κ α) (hs : Moves .free start s)
      (hc : c.IsForEntity) (hend : c.isEndless s.engine = false)
      (hfit : c.overflows s.engine = false) (hid : id ∈ c.stored s.engine) :
      Pristine start id (s.after c)
  | later {s s' : Session κ σ} {ns : List (Notice κ)} (h : Pristine start id s)
      (hm : Move .free s s') (hj : s'.journal = ns ++ s.journal) (hedit : .rewritten id ∉ ns)
      (hdrop : .dropped id ∉ ns) : Pristine start id s'

theorem Pristine.moves (h : start.Pristine id s) : Moves .free start s := by
  induction h with
  | registered c hs hc hend hfit hid => exact moves_after hs c hend hfit
  | later h hm hj hedit hdrop ih => exact ih.tail hm

/-- A trigger that was registered for an entity and neither edited nor removed since is there, and
says where it comes from. -/
theorem Pristine.source {world : WorldId} {settings : Settings} {state : σ} {budget : Nat}
    (h : (opening world settings state budget).Pristine id s) :
    ∃ t, s.trigger? id = some t ∧ t.head.source.isSome = true := by
  induction h with
  | @registered s _ c hs hc hend hfit hid =>
    obtain ⟨t, ht, hsource⟩ := Change.hasSource hc hid
    refine ⟨t, ?_, hsource⟩
    show ((c.apply s.engine).2.shelf.get? id).or _ = some t
    rw [ht, Option.some_or]
  | later h hm hj hedit hdrop ih =>
    obtain ⟨hn, hd, -⟩ := tables_of_free_moves h.moves
    obtain ⟨t, ht, hsome⟩ := ih
    obtain ⟨t', ht', hun⟩ := trigger?_move hm hn hd hj ht hdrop
    have hsame : t'.unfired.head.source = t.unfired.head.source := by rw [hun hedit]
    exact ⟨t', ht', hsame ▸ hsome⟩

/-- Outside of all fires every trigger is on the shelf. -/
theorem trigger?_of_underway (h : s.underway = []) : s.trigger? id = s.engine.shelf.get? id := by
  have hfires : Journal.fires s.journal = [] := List.map_eq_nil_iff.1 h
  rw [trigger?, Journal.firing?, hfires]
  exact Option.or_none

end

end Session

/-! ## Loading -/

namespace Engine

variable {κ : Type} {e e' : Engine κ} {x : EntityId} {v : Json} {saved : SavedEntity}
  {ts : List (Trigger κ)}

theorem length_of_registerAll {ids : List TriggerId} (h : e.registerAll x ts = .ok (ids, e')) :
    ids.length = ts.length := by
  induction ts generalizing e ids with
  | nil =>
    cases h
    rfl
  | cons t rest ih =>
    obtain ⟨id, e₁, ids', -, h₂, rfl⟩ := registerAll_cons_eq_ok h
    rw [List.length_cons, List.length_cons, ih h₂]

/-- The world with the newcomer that a record tells of, before it gets its triggers. -/
def born (e : Engine κ) (saved : SavedEntity) : World :=
  (e.world.spawn saved.name saved.kind).2.modifyEntity (e.world.spawn saved.name saved.kind).1
    fun r => { r with stats := saved.stats }

theorem entity?_born {y : EntityId} : (e.born saved).entity? y =
    if y = (e.world.spawn saved.name saved.kind).1 then some
      { id := (e.world.spawn saved.name saved.kind).1
        name := saved.name
        kind := saved.kind
        stats := saved.stats }
    else e.world.entity? y := by
  rw [born, World.entity?_modifyEntity, World.entity?_spawn]
  by_cases hy : (e.world.spawn saved.name saved.kind).1 = y
  · simp [hy]
  · simp [hy, Ne.symm hy]

/-- Once its records are read, a load is not refused. -/
theorem load_of_read (hread : SavedEntity.read v = .ok saved)
    (hts : e.vocabulary.readTriggers e.settings.maxChainDepth saved.triggers = .ok ts) :
    ∃ ids e', e.load v = .ok (((e.world.spawn saved.name saved.kind).1, ids), e') ∧
      registerAll { e with world := e.born saved } (e.world.spawn saved.name saved.kind).1 ts =
        .ok (ids, e') := by
  have hborn : ((e.born saved).entity? (e.world.spawn saved.name saved.kind).1).isSome = true := by
    rw [entity?_born, if_pos rfl]
    rfl
  obtain ⟨ids, e', hall⟩ := registerAll_ok (e := { e with world := e.born saved }) hborn ts
  refine ⟨ids, e', ?_, hall⟩
  rw [load, hread]
  exact bind_eq_ok.2 ⟨ts, hts, bind_eq_ok.2 ⟨(ids, e'), hall, rfl⟩⟩

theorem sourced_eq_self {record : Entity} {t : Trigger κ} (h : t.head.source.isSome = true) :
    sourced record t = t := by
  obtain ⟨⟨⟩, rest⟩ := t
  obtain ⟨source, rfl⟩ := Option.isSome_iff_exists.1 h
  rfl

/-- While there are numbers left, a load brings in a newcomer with new triggers, and nothing else
changes. -/
theorem Unused.load (hu : e.Unused) (hroom : e.world.isFull = false)
    (hread : SavedEntity.read v = .ok saved)
    (hts : e.vocabulary.readTriggers e.settings.maxChainDepth saved.triggers = .ok ts)
    (hsource : ∀ t ∈ ts, t.head.source.isSome = true)
    (hfit : e.shelf.nextId.toNat + ts.length < UInt32.size) :
    ∃ x ids e', e.load v = .ok ((x, ids), e') ∧ e.world.entity? x = none ∧
      (∀ y, e'.world.entity? y = if y = x then some
          { id := x, name := saved.name, kind := saved.kind, stats := saved.stats, triggers := ids }
        else e.world.entity? y) ∧
      e.Enlists x ids ts e' := by
  have hborn : (e.born saved).entity? (e.world.spawn saved.name saved.kind).1 = some
      { id := (e.world.spawn saved.name saved.kind).1
        name := saved.name
        kind := saved.kind
        stats := saved.stats } := by
    rw [entity?_born, if_pos rfl]
  obtain ⟨ids, e', hall, hen, hlists⟩ := Unused.registerAll ts
    (e := { e with world := e.born saved }) ⟨hu.slots, hu.tables⟩ hborn
    (fun id hid => by cases hid) hfit
  obtain ⟨ids', e'', hload, hall'⟩ := load_of_read hread hts
  cases hall'.symm.trans hall
  refine ⟨_, ids, e', hload, World.spawn_id _ _ hroom, fun y => ?_, ?_⟩
  · rw [hlists y, entity?_born]
    by_cases hy : y = (e.world.spawn saved.name saved.kind).1
    · simp [hy]
    · simp [hy]
  · rw [List.map_congr_left fun t ht => sourced_eq_self (hsource t ht), List.map_id'] at hen
    exact ⟨hen.new, hen.once, hen.shelf, hen.live, hen.owned, hen.heard, hen.otherSlots,
      hen.otherOrigins, hen.otherOwners⟩

end Engine

/-! ## There and back -/

/-- The record of an entity does not tell it from another one of its name, kind and stats whose
triggers are recalled. -/
theorem Engine.saved_toJson_recalled {κ : Type} (f : Functions κ) (ts : List (Trigger κ))
    (record : Entity) (x : EntityId) (ids : List TriggerId) :
    (saved record ts).toJson = (saved
      { id := x
        name := record.name
        kind := record.kind
        stats := record.stats
        triggers := ids } (ts.map (·.recalled f))).toJson := by
  simp only [saved, List.map_map]
  congr 2
  exact List.map_congr_left fun t _ => t.toJson_recalled.symm

/-- A load that is not refused is made if there are numbers for the newcomer and its triggers. -/
theorem Run.makeChange_load {κ σ : Type} {s s' : Session κ σ} {v : Json} {x : EntityId}
    {ids : List TriggerId} {e' : Engine κ} {answer : Except Failure EntityId}
    (hload : s.engine.load v = .ok ((x, ids), e')) :
    makeChange (.load v) s = .ok answer s' ↔ ∃ b, s.budget = b + 1 ∧
      s.engine.world.isFull = false ∧ s.engine.shelf.nextId.toNat + ids.length < UInt32.size ∧
        answer = .ok x ∧ s' = { s with
          engine := e'
          journal := (Change.load v).notices s.engine e' ++ s.journal
          budget := b } := by
  have hend : (Change.load v).isEndless s.engine = s.engine.world.isFull := by
    simp [Change.isEndless, hload, Except.isOk, Except.toBool]
  have hover : (Change.load v).overflows s.engine = false ↔
      s.engine.shelf.nextId.toNat + ids.length < UInt32.size := by
    have hstored : (Change.load v).stored s.engine = ids := Change.stored_load hload
    have hhandlers := s.engine.listeners.nextHandler.toNat_lt_size
    rw [Change.overflows, hstored, Bool.or_eq_false_iff, decide_eq_false_iff_not,
      decide_eq_false_iff_not, Nat.not_le, Nat.not_le]
    exact ⟨And.left, fun h => ⟨h, hhandlers⟩⟩
  have happly : (Change.load v).apply s.engine = (.ok x, e') := by
    simp only [Change.apply, hload]
    rfl
  rw [makeChange_eq_ok, hend, hover, happly]

theorem exists_map_some {α β : Type} {f : α → Option β} {P : β → Prop} {as : List α}
    (h : ∀ a ∈ as, ∃ b, f a = some b ∧ P b) :
    ∃ bs : List β, as.map f = bs.map some ∧ ∀ b ∈ bs, P b := by
  induction as with
  | nil => exact ⟨[], rfl, fun _ hb => by cases hb⟩
  | cons a as ih =>
    obtain ⟨b, hb, hP⟩ := h a List.mem_cons_self
    obtain ⟨bs, hbs, hPs⟩ := ih fun a ha => h a (List.mem_cons_of_mem _ ha)
    refine ⟨b :: bs, by rw [List.map_cons, List.map_cons, hb, hbs], fun b' hb' => ?_⟩
    rcases List.mem_cons.1 hb' with rfl | hb'
    · exact hP
    · exact hPs b' hb'

namespace Session

variable {κ σ : Type}

/-- Outside of all fires the triggers of an entity are on the shelf and can be saved, if they were
registered for entities and neither edited nor removed since. -/
theorem triggers_of_pristine {world : WorldId} {settings : Settings} {state : σ} {budget : Nat}
    {s : Session κ σ} {record : Entity} (hout : s.underway = [])
    (hpristine : ∀ id ∈ record.triggers, (opening world settings state budget).Pristine id s)
    {P : Trigger κ → Prop}
    (hsavable : ∀ id ∈ record.triggers, ∀ t, s.engine.shelf.get? id = some t → P t) :
    ∃ ts : List (Trigger κ), record.triggers.map s.engine.shelf.get? = ts.map some ∧
      (∀ t ∈ ts, t.head.source.isSome = true) ∧ ∀ t ∈ ts, P t := by
  have hall : ∀ id ∈ record.triggers, ∃ t, s.engine.shelf.get? id = some t ∧
      t.head.source.isSome = true ∧ P t := by
    intro id hid
    obtain ⟨t, ht, hsource⟩ := (hpristine id hid).source
    rw [trigger?_of_underway hout] at ht
    exact ⟨t, ht, hsource, hsavable id hid t ht⟩
  obtain ⟨ts, hts, hts'⟩ := exists_map_some hall
  exact ⟨ts, hts, fun t ht => (hts' t ht).1, fun t ht => (hts' t ht).2⟩

/-- Saving and loading are inverse on what a record holds. Outside of all fires an entity can be
saved if its triggers were registered for entities and neither edited nor removed since, are not too
deep, and run only functions that are known. Loading the record is not refused, as long as there are
numbers left and the run goes on at all. The newcomer has the name, the kind and the stats of the
entity and saves as the same record; its triggers are those of the entity, in the same order and not
fired yet, each on the shelf, live, subscribed to its event behind all who were, and owned by the
newcomer. Every other entity and trigger stays as it was. -/
theorem saved_entity_returns {world : WorldId} {settings : Settings} {state : σ} {budget : Nat}
    {s : Session κ σ} {x : EntityId} {record : Entity}
    (hm : Moves .free (opening world settings state budget) s) (hout : s.underway = [])
    (hx : s.engine.world.entity? x = some record)
    (hpristine : ∀ id ∈ record.triggers, (opening world settings state budget).Pristine id s)
    (hsavable : ∀ id ∈ record.triggers, ∀ t, s.engine.shelf.get? id = some t →
      t.length ≤ s.engine.settings.maxChainDepth.toNat ∧ t.Known s.engine.vocabulary.functions) :
    ∃ (v : Json) (ts : List (Trigger κ)), s.engine.save x = .ok v ∧
      record.triggers.map s.engine.shelf.get? = ts.map some ∧
      (∀ t ∈ ts, (t.recalled s.engine.vocabulary.functions).sameRecord t.unfired = true ∧
        (t.Bound s.engine.vocabulary.functions →
          t.recalled s.engine.vocabulary.functions = t.unfired)) ∧
      (0 < s.budget → s.engine.world.isFull = false →
        s.engine.shelf.nextId.toNat + record.triggers.length < UInt32.size →
          ∃ answer s', Run.makeChange (.load v) s = .ok answer s') ∧
      ∀ answer s', Run.makeChange (.load v) s = .ok answer s' →
        ∃ x' ids, answer = .ok x' ∧ s.engine.world.entity? x' = none ∧
          (∀ y, s'.engine.world.entity? y = if y = x' then some
              { id := x'
                name := record.name
                kind := record.kind
                stats := record.stats
                triggers := ids }
            else s.engine.world.entity? y) ∧
          s.engine.Enlists x' ids (ts.map (·.recalled s.engine.vocabulary.functions)) s'.engine ∧
          s'.engine.save x' = .ok v := by
  obtain ⟨hn, -, hmentioned⟩ := tables_of_free_moves hm
  obtain ⟨entries, hentries⟩ := vocabulary_of_moves hm
  have hv : s.engine.vocabulary.KnowsBuiltins :=
    hentries ▸ Vocabulary.knowsBuiltins_enterAll entries
  obtain ⟨ts, hts, hsource, hsave⟩ := triggers_of_pristine hout hpristine hsavable
  have hlength : record.triggers.length = ts.length := by
    simpa using congrArg List.length hts
  -- what is read from the record
  have hread := SavedEntity.read_toJson (Engine.saved record ts)
  have htriggers : s.engine.vocabulary.readTriggers s.engine.settings.maxChainDepth
      (Engine.saved record ts).triggers = _ := Vocabulary.readTriggers_toJson hv hsave
  obtain ⟨ids, e', hload, hregister⟩ := Engine.load_of_read hread htriggers
  have hids : ids.length = ts.length :=
    (Engine.length_of_registerAll hregister).trans (List.length_map _)
  refine ⟨(Engine.saved record ts).toJson, ts, Engine.save_eq hx hts, hts,
    fun t _ => ⟨t.sameRecord_recalled, t.recalled_of_bound⟩, fun hbudget hroom hfit => ?_,
    fun answer s' hmake => ?_⟩
  · obtain ⟨b, hb⟩ := Nat.exists_eq_add_of_le' hbudget
    rw [hlength, ← hids] at hfit
    exact ⟨_, _, (Run.makeChange_load hload).2 ⟨b, hb, hroom, hfit, rfl, rfl⟩⟩
  · obtain ⟨b, -, hroom, hfit, rfl, rfl⟩ := (Run.makeChange_load hload).1 hmake
    rw [hids] at hfit
    obtain ⟨x', ids', e'', hload', hnone, hworld, hen⟩ := (unused hn hmentioned).load hroom hread
      htriggers (fun t ht => by
        obtain ⟨t', ht', rfl⟩ := List.mem_map.1 ht
        exact hsource t' ht') (by rwa [List.length_map])
    cases hload.symm.trans hload'
    refine ⟨_, ids, rfl, hnone, hworld, hen, ?_⟩
    rw [Engine.saved_toJson_recalled]
    exact Engine.save_eq ((hworld _).trans (if_pos rfl)) hen.shelf

/-- A guest that has not come yet, in an encounter where a reaction has a name. -/
def expecting : Session Nat Unit :=
  ((opening Engine.defaultWorld {} () 10).after (.nameReaction "howl" 7)).after
    (.spawn "guest" .npc)

/-- A guest with a trigger. -/
def hosting : Session Nat Unit :=
  expecting.after (.register ⟨1⟩ (.new "DUSK" (.perception 3) (.function "howl" 7)))

theorem saved_entity_returns_guest :
    ∃ v answer s', hosting.engine.save ⟨1⟩ = .ok v ∧
      Run.makeChange (.load v) hosting = .ok answer s' ∧
      ∃ x', answer = .ok x' ∧ hosting.engine.world.entity? x' = none ∧
        s'.engine.save x' = .ok v := by
  have hnamed : Moves .free (opening Engine.defaultWorld {} () 10)
      ((opening Engine.defaultWorld {} () 10).after (.nameReaction "howl" 7)) :=
    moves_after .refl _ rfl (by decide +kernel)
  have hexpecting : Moves .free (opening Engine.defaultWorld {} () 10) expecting :=
    moves_after hnamed _ (by decide +kernel) (by decide +kernel)
  have hhosting : Moves .free (opening Engine.defaultWorld {} () 10) hosting :=
    moves_after hexpecting _ rfl (by decide +kernel)
  have hguest : hosting.engine.world.entity? ⟨1⟩ =
      some { id := ⟨1⟩, name := "guest", kind := .npc, triggers := [⟨1⟩] } := by
    decide +kernel
  have htrigger : hosting.engine.shelf.get? ⟨1⟩ =
      some ((Trigger.new "DUSK" (.perception 3) (.function "howl" 7)).withSource "guest") := rfl
  obtain ⟨v, ts, hsave, -, -, hgoes, hloads⟩ := saved_entity_returns hhosting rfl hguest
    (fun id hid => by
      obtain rfl := List.mem_singleton.1 hid
      exact .registered _ hexpecting trivial rfl (by decide +kernel) (by decide +kernel))
    (fun id hid t ht => by
      obtain rfl := List.mem_singleton.1 hid
      cases htrigger.symm.trans ht
      refine ⟨by decide, fun l hl => ?_⟩
      obtain rfl := List.mem_singleton.1 hl
      exact ⟨trivial, show hosting.engine.vocabulary.functions.reactions.contains "howl" = true by
        decide +kernel⟩)
  obtain ⟨answer, s', hmake⟩ := hgoes (by decide) (by decide +kernel) (by decide +kernel)
  obtain ⟨x', ids, hanswer, hnew, -, -, hagain⟩ := hloads answer s' hmake
  exact ⟨v, answer, s', hsave, hmake, x', hanswer, hnew, hagain⟩

end Session

end Encounter
