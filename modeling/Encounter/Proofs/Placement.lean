import Encounter.Proofs.Following
import Encounter.Proofs.Grid
import Encounter.Proofs.Registration
import Encounter.Proofs.World

/-!
# Who stands where

An entity knows its position and a tile knows who stands on it. `World.Step` is anything that can
be done to a world; every step keeps the two in agreement (`World.Aligned.step`), since it rewrites
one entity and the tiles that it leaves and enters. Whatever an engine does to its world is a
sequence of steps (`Session.world_steps`), so the agreement holds in every session of a run.
-/

set_option autoImplicit false

namespace Encounter

namespace World

variable {w w' : World} {x y : EntityId} {p : Position} {record : Entity}

/-! ## Steps -/

/-- One thing is done to a world. Rewriting an entity or a tile leaves positions and occupants to
the other operations. -/
inductive Step : World → World → Prop
  | allocate {w : World} : Step w w.allocate.2
  | spawn {w : World} (name : String) (kind : EntityKind) (h : w.isFull = false) :
      Step w (w.spawn name kind).2
  | insert {w w' : World} {record : Entity} {x : EntityId} (h : w.insert record = .ok (x, w')) :
      Step w w'
  | place {w w' : World} {x : EntityId} {p : Position} (h : w.place x p = .ok w') : Step w w'
  | move {w w' : World} {x : EntityId} {p : Position} {moved : Bool}
      (h : w.move x p = .ok (moved, w')) : Step w w'
  | remove {w w' : World} {x : EntityId} {record : Entity} (h : w.remove? x = some (record, w')) :
      Step w w'
  | edit {w : World} (x : EntityId) (f : Entity → Entity) (hid : ∀ r, (f r).id = r.id)
      (hpos : ∀ r, (f r).position = r.position) : Step w (w.modifyEntity x f)
  | addTag {w : World} (p : Position) (tag : TileTag) :
      Step w { w with grid := (w.grid.addTag p tag).2 }
  | removeTag {w : World} (p : Position) (tag : TileTag) :
      Step w { w with grid := (w.grid.removeTag p tag).2 }
  | editTile {w : World} (p : Position) (f : Tile → Tile)
      (hf : ∀ tile, (f tile).occupants = tile.occupants) :
      Step w { w with grid := w.grid.modifyTile p f }

/-- Things are done to a world one after the other. -/
abbrev Steps : World → World → Prop :=
  Relation.ReflTransGen Step

/-! ## What placement does -/

theorem insert_grid (h : w.insert record = .ok (x, w')) :
    (record.position = none ∧ w'.grid = w.grid) ∨ ∃ p, record.position = some p ∧
      w.grid.contains p = true ∧ w'.grid = w.grid.addOccupant p record.id := by
  unfold insert at h
  split at h
  · cases h
  · dsimp only at h
    split at h
    · rename_i hpos
      cases h
      exact .inl ⟨hpos, rfl⟩
    · rename_i p hpos
      split at h
      · rename_i hp
        cases h
        exact .inr ⟨p, hpos, hp, rfl⟩
      · cases h

/-- The grid without an entity on the tile where it stands, if it stands anywhere. -/
def vacated (w : World) (x : EntityId) (record : Entity) : Grid :=
  match record.position with
  | some p => w.grid.removeOccupant p x
  | none => w.grid

theorem contains_vacated : (w.vacated x record).contains p = w.grid.contains p := by
  unfold vacated
  split
  · exact Grid.contains_modifyTile
  · rfl

theorem nodup_vacated (h : (w.grid.occupants p).Nodup) :
    ((w.vacated x record).occupants p).Nodup := by
  unfold vacated
  split
  · exact Grid.nodup_removeOccupant h
  · exact h

theorem mem_vacated : y ∈ (w.vacated x record).occupants p ↔
    y ∈ w.grid.occupants p ∧ (record.position = some p → y ≠ x) := by
  unfold vacated
  split
  · rename_i old hpos
    rw [Grid.mem_occupants_removeOccupant, hpos, Option.some_inj]
  · rename_i hpos
    simp [hpos]

theorem remove?_grid (h : w.remove? x = some (record, w')) : w'.grid = w.vacated x record := by
  unfold remove? at h
  split at h
  · cases h
  · cases h
    rfl

theorem place_eq_ok (h : w.place x p = .ok w') : ∃ record, w.entity? x = some record ∧
    w.grid.contains p = true ∧ w'.grid = (w.vacated x record).addOccupant p x ∧
      ∀ y, w'.entity? y =
        if x = y then some { record with position := some p } else w.entity? y := by
  unfold place at h
  split at h
  · cases h
  · rename_i record hx
    split at h
    · rename_i hp
      cases h
      refine ⟨record, hx, hp, rfl, fun y => ?_⟩
      simp only [entity?, Std.ExtTreeMap.getElem?_insert, Std.LawfulEqCmp.compare_eq_iff_eq]
    · cases h

theorem place_id (h : w.place x p = .ok w') : w'.id = w.id := by
  unfold place at h
  split at h
  · cases h
  · split at h <;> cases h
    rfl

/-- Whatever is done to a world, it stays the same one. -/
theorem Steps.id_eq (h : Steps w w') : w'.id = w.id := by
  induction h with
  | refl => rfl
  | @tail w₁ w₂ _ h ih =>
    refine Eq.trans ?_ ih
    cases h with
    | insert h =>
      unfold insert at h
      split at h
      · cases h
      · dsimp only at h
        split at h
        · cases h
          rfl
        · split at h <;> cases h
          rfl
    | place h => exact place_id h
    | move h =>
      unfold move at h
      split at h
      · cases h
      · split at h
        · cases h
          rfl
        · obtain ⟨w₃, hplace, he⟩ := map_eq_ok.1 h
          cases he
          exact place_id hplace
    | remove h =>
      unfold remove? at h
      split at h <;> cases h
      rfl
    | _ => rfl

/-! ## Agreement -/

/-- Entities are kept under their own numbers, and stand exactly where the tiles say. -/
structure Aligned (w : World) : Prop where
  own : ∀ x record, w.entity? x = some record → record.id = x
  stands : ∀ x p, x ∈ w.grid.occupants p ↔
    ∃ record, w.entity? x = some record ∧ record.position = some p
  once : ∀ p, (w.grid.occupants p).Nodup

namespace Aligned

theorem new (id : WorldId) (width height : UInt32) (kind : GridKind) :
    (World.new id (.new width height kind)).Aligned where
  own x record hx := by simp [World.new, entity?] at hx
  stands x p := by simp [World.new, entity?, Grid.occupants_new]
  once p := by
    rw [World.new, Grid.occupants_new]
    exact List.nodup_nil

/-- Who has no number yet stands nowhere. -/
theorem not_mem_of_none (h : w.Aligned) (hx : w.entity? x = none) :
    x ∉ w.grid.occupants p := by
  rw [h.stands, hx]
  simp

/-- One entity is rewritten, and it stands where its new record says. -/
theorem update {o : Option Entity} (h : w.Aligned)
    (he : ∀ y, w'.entity? y = if x = y then o else w.entity? y)
    (hid : ∀ record, o = some record → record.id = x)
    (hx : ∀ p, x ∈ w'.grid.occupants p ↔ ∃ record, o = some record ∧ record.position = some p)
    (hy : ∀ y p, y ≠ x → (y ∈ w'.grid.occupants p ↔ y ∈ w.grid.occupants p))
    (hn : ∀ p, (w'.grid.occupants p).Nodup) : w'.Aligned := by
  refine ⟨fun y record hr => ?_, fun y p => ?_, hn⟩
  · rw [he] at hr
    split at hr
    · rename_i hxy
      exact hxy ▸ hid record hr
    · exact h.own y record hr
  · rw [he]
    by_cases hxy : x = y
    · subst hxy
      rw [if_pos rfl]
      exact hx p
    · rw [if_neg hxy, hy y p (Ne.symm hxy)]
      exact h.stands y p

/-- The same entities stand at the same places. -/
theorem congr (h : w.Aligned) (he : w'.entities = w.entities)
    (ho : ∀ p, w'.grid.occupants p = w.grid.occupants p) : w'.Aligned := by
  have hent : ∀ y, w'.entity? y = w.entity? y := fun y => by
    unfold entity?
    rw [he]
  refine ⟨fun y record hr => h.own y record ((hent y).symm.trans hr), fun y p => ?_, fun p => ?_⟩
  · rw [ho, hent]
    exact h.stands y p
  · rw [ho]
    exact h.once p

theorem insert (h : w.Aligned) (hi : w.insert record = .ok (x, w')) : w'.Aligned := by
  obtain ⟨-, hnew, hget⟩ := insert_eq_ok hi
  have hout : ∀ p, record.id ∉ w.grid.occupants p := fun p => h.not_mem_of_none hnew
  have hid : ∀ r, some record = some r → r.id = record.id := by
    rintro r ⟨⟩
    rfl
  rcases insert_grid hi with ⟨hpos, hg⟩ | ⟨q, hpos, hq, hg⟩
  · refine h.update hget hid (fun p => ?_) (fun y p _ => by rw [hg]) fun p => hg ▸ h.once p
    rw [hg]
    refine iff_of_false (hout p) ?_
    simp [hpos]
  · refine h.update hget hid (fun p => ?_) (fun y p hy => ?_) fun p => ?_
    · rw [hg, Grid.mem_occupants_addOccupant, or_iff_right (hout p)]
      simp [hpos, hq]
    · rw [hg, Grid.mem_occupants_addOccupant]
      simp [hy]
    · rw [hg]
      exact Grid.nodup_addOccupant (h.once p)

theorem remove (h : w.Aligned) (hr : w.remove? x = some (record, w')) : w'.Aligned := by
  obtain ⟨hx, hget⟩ := remove?_eq_some hr
  refine h.update hget (by simp) (fun p => ?_) (fun y p hy => ?_) fun p => ?_
  · rw [remove?_grid hr, mem_vacated, h.stands, hx]
    simp
  · rw [remove?_grid hr, mem_vacated, and_iff_left fun _ => hy]
  · rw [remove?_grid hr]
    exact nodup_vacated (h.once p)

theorem place (h : w.Aligned) (hp : w.place x p = .ok w') : w'.Aligned := by
  obtain ⟨r, hx, hin, hg, hget⟩ := place_eq_ok hp
  -- it leaves its old tile before it is put anywhere, so it is not listed twice
  have hleft : ∀ q, x ∉ (w.vacated x r).occupants q := by
    intro q
    rw [mem_vacated, h.stands, hx]
    simp
  refine h.update hget ?_ (fun q => ?_) (fun y q hy => ?_) fun q => ?_
  · rintro r' ⟨⟩
    exact h.own x r hx
  · rw [hg, Grid.mem_occupants_addOccupant, or_iff_right (hleft q), contains_vacated]
    simp [hin]
  · rw [hg, Grid.mem_occupants_addOccupant, mem_vacated]
    simp [hy]
  · rw [hg]
    exact Grid.nodup_addOccupant (nodup_vacated (h.once q))

theorem move {moved : Bool} (h : w.Aligned) (hm : w.move x p = .ok (moved, w')) :
    w'.Aligned := by
  unfold World.move at hm
  split at hm
  · cases hm
  · split at hm
    · cases hm
      exact h
    · obtain ⟨w₁, hp, he⟩ := map_eq_ok.1 hm
      cases he
      exact h.place hp

theorem spawn (h : w.Aligned) (name : String) (kind : EntityKind) (hfull : w.isFull = false) :
    (w.spawn name kind).2.Aligned := by
  refine h.update (fun _ => entity?_spawn name kind) ?_ (fun p => ?_) (fun _ _ _ => Iff.rfl) h.once
  · rintro record ⟨⟩
    rfl
  · refine iff_of_false (h.not_mem_of_none (spawn_id name kind hfull)) ?_
    simp

theorem edit {f : Entity → Entity} (h : w.Aligned) (hid : ∀ r, (f r).id = r.id)
    (hpos : ∀ r, (f r).position = r.position) : (w.modifyEntity x f).Aligned := by
  refine h.update (x := x) (o := (w.entity? x).map f) (fun y => ?_) ?_ (fun p => ?_)
    (fun _ _ _ => Iff.rfl) h.once
  · rw [entity?_modifyEntity]
    split
    · rename_i hy
      rw [hy]
    · rfl
  · intro record hr
    obtain ⟨r, hx, rfl⟩ := Option.map_eq_some_iff.1 hr
    rw [hid]
    exact h.own x r hx
  · refine (h.stands x p).trans ?_
    cases w.entity? x with
    | none => simp
    | some r => simp [hpos]

/-- Every step keeps the agreement. -/
theorem step (h : w.Aligned) (hs : Step w w') : w'.Aligned := by
  cases hs with
  | allocate => exact h.congr rfl fun _ => rfl
  | spawn name kind hfull => exact h.spawn name kind hfull
  | insert hi => exact h.insert hi
  | place hp => exact h.place hp
  | move hm => exact h.move hm
  | remove hr => exact h.remove hr
  | edit x f hid hpos => exact h.edit hid hpos
  | addTag | removeTag =>
    exact h.congr rfl fun _ => Grid.occupants_modifyTile fun _ => rfl
  | editTile p f hf => exact h.congr rfl fun _ => Grid.occupants_modifyTile hf

theorem steps (h : w.Aligned) (hs : Steps w w') : w'.Aligned := by
  induction hs with
  | refl => exact h
  | tail _ hs ih => exact ih.step hs

end Aligned

end World

/-! ## Lists of triggers -/

/-- A trigger is put on the list of an entity or taken off it. -/
inductive World.Relist : World → World → Prop
  | attach {w : World} (x : EntityId) (id : TriggerId) : Relist w (w.modifyEntity x (·.attach id))
  | detach {w : World} (x : EntityId) (id : TriggerId) : Relist w (w.modifyEntity x (·.detach id))

/-- Triggers are put on lists and taken off them. -/
abbrev World.Relists : World → World → Prop :=
  Relation.ReflTransGen Relist

theorem World.Relists.steps {w w' : World} (h : Relists w w') : Steps w w' := by
  refine Relation.ReflTransGen.mono (fun w w' hr => ?_) _ _ h
  cases hr with
  | attach x id =>
    refine .edit x _ (fun r => ?_) fun r => ?_ <;>
    · unfold Entity.attach
      split <;> rfl
  | detach x id => exact .edit x _ (fun _ => rfl) fun _ => rfl

/-! ## Engines -/

/-- Does the change leave positions, occupants and numbers of entities to the operations on the
world? -/
def Change.KeepsPlaces {κ α : Type} : Change κ α → Prop
  | .edit _ f => ∀ record, (f record).id = record.id ∧ (f record).position = record.position
  | .editTile _ f => ∀ tile, (f tile).occupants = tile.occupants
  | _ => True

namespace Engine

open World (Steps Relists)

variable {κ : Type} {e e' : Engine κ} {x : EntityId} {id : TriggerId}

theorem attach_relists (h : e.attach x id = .ok e') : Relists e.world e'.world := by
  obtain ⟨-, -, rfl⟩ := attach_eq_ok.1 h
  rw [activate_world]
  have hattach : Relists e.world _ := .single (.attach x id)
  show Relists e.world (e.handOver x id)
  unfold handOver
  dsimp only
  split
  · split
    · exact hattach
    · exact hattach.tail (.detach _ id)
  · exact hattach

theorem registerGlobal_world (t : Trigger κ) : (e.registerGlobal t).2.world = e.world := by
  rw [registerGlobal_eq, activate_world]

theorem register_relists {t : Trigger κ} (h : e.register x t = .ok (id, e')) :
    Relists e.world e'.world := by
  obtain ⟨t', -, -, ha⟩ := register_eq_ok h
  have hs := attach_relists ha
  rwa [registerGlobal_world] at hs

theorem registerAll_relists {triggers : List (Trigger κ)} {ids : List TriggerId}
    (h : e.registerAll x triggers = .ok (ids, e')) : Relists e.world e'.world := by
  induction triggers generalizing e ids with
  | nil =>
    cases h
    exact .refl
  | cons t rest ih =>
    obtain ⟨id, e₁, ids', h₁, h₂, rfl⟩ := registerAll_cons_eq_ok h
    exact (register_relists h₁).trans (ih h₂)

theorem removeTrigger_relists {answer : Option (Trigger κ)}
    (h : e.removeTrigger id = .ok (answer, e')) : Relists e.world e'.world := by
  obtain ⟨-, -, rfl⟩ := removeTrigger_eq_ok.1 h
  show Relists e.world (e.detach id)
  unfold detach
  split
  · exact .single (.detach _ id)
  · exact .refl

theorem removeTriggers_relists (ids : List TriggerId) :
    Relists e.world (e.removeTriggers ids).world :=
  removeTriggers_keeps (P := fun e' => Relists e.world e'.world)
    (fun _ _ _ _ hs h => hs.trans (removeTrigger_relists h)) ids e .refl

theorem load_steps {record : Json} {ids : List TriggerId} (hfull : e.world.isFull = false)
    (h : e.load record = .ok ((x, ids), e')) : Steps e.world e'.world := by
  obtain ⟨name, kind, stats, triggers, -, rfl, hall⟩ := load_eq_ok h
  have hspawn : Steps e.world (e.world.spawn name kind).2 := .single (.spawn name kind hfull)
  have hstats := hspawn.tail (.edit (e.world.spawn name kind).1 (fun r => { r with stats })
    (fun _ => rfl) fun _ => rfl)
  exact hstats.trans (registerAll_relists hall).steps

end Engine

open Engine World in
/-- Whatever a change does to the world is done in steps. -/
theorem Change.world_steps {κ α : Type} (c : Change κ α) (e : Engine κ) (hk : c.KeepsPlaces)
    (hend : c.isEndless e = false) : Steps e.world (c.apply e).2.world := by
  have hrefuse : ∀ {β : Type} {r : Except Failure (β × Engine κ)},
      (∀ b e', r = .ok (b, e') → Steps e.world e'.world) →
        Steps e.world (e.orRefuse r).2.world := fun hr =>
    orRefuse_cases (P := fun e' => Steps e.world e'.world) .refl hr
  have hworld : ∀ {β : Type} {r : Except Failure (β × World)},
      (∀ b world, r = .ok (b, world) → Steps e.world world) →
        Steps e.world (e.onWorldOrRefuse r).2.world := fun hr =>
    onWorldOrRefuse_cases (P := fun e' => Steps e.world e'.world) .refl hr
  cases c with
  | allocate => exact .single .allocate
  | spawn name kind => exact .single (.spawn name kind hend)
  | insert record => exact hworld fun x world h => .single (.insert h)
  | edit x f => exact .single (.edit x f (fun r => (hk r).1) fun r => (hk r).2)
  | damage x amount => exact .single (.edit x _ (fun _ => rfl) fun _ => rfl)
  | place x p =>
    refine hworld fun _ world h => ?_
    obtain ⟨w, hw, he⟩ := map_eq_ok.1 h
    cases he
    exact .single (.place hw)
  | move x p => exact hworld fun moved world h => .single (.move h)
  | removeEntity x =>
    refine hrefuse fun removed e' h => ?_
    obtain ⟨world, hw, rfl⟩ := removeEntity_eq_ok h
    exact (removeTriggers_relists _).steps.tail (.remove hw)
  | addTag p tag => exact .single (.addTag p tag)
  | removeTag p tag => exact .single (.removeTag p tag)
  | editTile p f => exact .single (.editTile p f hk)
  | register x t => exact hrefuse fun _ _ h => (register_relists h).steps
  | registerGlobal t =>
    show Steps e.world (e.registerGlobal t).2.world
    rw [registerGlobal_world]
  | attach x id =>
    refine hrefuse fun _ e' h => ?_
    obtain ⟨e₁, ha, he⟩ := map_eq_ok.1 h
    cases he
    exact (attach_relists ha).steps
  | removeTrigger id => exact hrefuse fun _ _ h => (removeTrigger_relists h).steps
  | addPresets x =>
    refine hrefuse fun ids e' h => ?_
    obtain ⟨_, -, hall⟩ := addPresets_eq_ok h
    exact (registerAll_relists hall).steps
  | load record =>
    refine hrefuse fun x e' h => ?_
    obtain ⟨⟨⟨x, ids⟩, e₁⟩, hl, he⟩ := map_eq_ok.1 h
    cases he
    -- in a full world the load would look for a free number for ever
    have hfull : e.world.isFull = false := by
      simpa [isEndless, hl, Except.isOk, Except.toBool] using hend
    exact load_steps hfull hl
  | resetEvents => exact (removeTriggers_relists _).steps
  | addConditionType | addReactionType | nameCondition | nameReaction =>
    refine hrefuse fun _ e' h => ?_
    obtain ⟨_, -, he⟩ := map_eq_ok.1 h
    cases he
    exact .refl
  | dequeue =>
    simp only [apply, Engine.dequeue]
    split <;> exact .refl
  | _ => exact .refl

/-- Whatever is changed, the world stays the same one. -/
theorem Change.world_id {κ α : Type} {e : Engine κ} (c : Change κ α)
    (hend : c.isEndless e = false) : (c.apply e).2.world.id = e.world.id := by
  have hsteps : c.KeepsPlaces → (c.apply e).2.world.id = e.world.id := fun hk =>
    (c.world_steps e hk hend).id_eq
  cases c with
  | edit | editTile => rfl
  | _ => exact hsteps trivial

/-! ## Runs -/

/-- The operations that leave positions, occupants and numbers of entities to the operations on the
world. -/
def Licence.keepsPlaces {κ σ : Type} : Licence κ σ
  | _, .change c => c.KeepsPlaces
  | _, _ => True

namespace Session

section
variable {κ σ : Type} {s s' : Session κ σ}

theorem keepsPlaces_of_permits {α : Type} {c : Change κ α}
    (h : (Licence.keepsPlaces (σ := σ)).Permits c) : c.KeepsPlaces := by
  cases h with
  | asked h => exact h
  | _ => trivial

theorem world_steps_of_move (hm : Move .keepsPlaces s s') :
    World.Steps s.engine.world s'.engine.world := by
  cases hm with
  | change c hc hend => exact c.world_steps s.engine (keepsPlaces_of_permits hc) hend
  | strike target dice =>
    dsimp only [Engine.strike]
    split
    · exact .single (.edit target _ (fun _ => rfl) fun _ => rfl)
    · exact .refl
  | _ => exact .refl

/-- Whatever a run does to the world is done in steps. -/
theorem world_steps (hm : Moves .keepsPlaces s s') :
    World.Steps s.engine.world s'.engine.world :=
  hm.keep (P := fun s' => World.Steps s.engine.world s'.engine.world)
    (fun _ _ hmove hs => hs.trans (world_steps_of_move hmove)) .refl

end

end Session

/-! ## Everybody in their place -/

/-- Entities are kept under their own numbers; an entity stands at a position if and only if that is
on the grid and the tile lists it, once, and then no other tile does; and tiles list nobody else. -/
structure World.Placed (w : World) : Prop where
  own : ∀ x record, w.entity? x = some record → record.id = x
  stands : ∀ x record, w.entity? x = some record → ∀ p, record.position = some p ↔
    w.grid.contains p = true ∧ x ∈ w.grid.occupants p
  alone : ∀ x record p, w.entity? x = some record → record.position = some p →
    ∀ q, (w.grid.occupants q).count x = if q = p then 1 else 0
  present : ∀ p, ∀ x ∈ w.grid.occupants p, (w.entity? x).isSome = true

theorem World.Aligned.placed {w : World} (h : w.Aligned) : w.Placed := by
  have hstands : ∀ x record p, w.entity? x = some record →
      (x ∈ w.grid.occupants p ↔ record.position = some p) := by
    intro x record p hx
    rw [h.stands, hx]
    simp
  refine ⟨h.own, fun x record hx p => ?_, fun x record p hx hp q => ?_, fun p x hx => ?_⟩
  · rw [← hstands x record p hx]
    exact ⟨fun hm => ⟨Grid.contains_of_mem_occupants hm, hm⟩, And.right⟩
  · split
    · rename_i hq
      subst hq
      exact List.count_eq_one_of_mem (h.once q) ((hstands x record q hx).2 hp)
    · rename_i hq
      refine List.count_eq_zero_of_not_mem fun hm => hq ?_
      rw [hstands x record q hx, hp] at hm
      exact (Option.some.inj hm).symm
  · obtain ⟨record, hx, -⟩ := (h.stands x p).1 hx
    rw [hx]
    rfl

section
variable {κ σ α : Type} {host : Host κ σ} {p : Program κ σ α} {settings : Settings} {state : σ}
  {budget : Nat} {world : WorldId}

theorem Session.aligned_of_moves {s : Session κ σ}
    (hm : Moves .keepsPlaces (Session.opening world settings state budget) s) :
    s.engine.world.Aligned :=
  (World.Aligned.new world settings.width settings.height settings.gridKind).steps
    (Session.world_steps hm)

end

/-- A guest is removed by its own trigger, which a noise on its tile fires. -/
def Session.ambush : Program Unit Unit Delivery :=
  .perform (.change (.spawn "guest" .npc)) fun guest =>
    .perform (.change (.place guest ⟨1, 1⟩)) fun _ =>
      .perform (.change (.register guest (.new "noise" .always (.function "leave" ())))) fun _ =>
        .perform (.emit "noise" { world := some Engine.defaultWorld, position := some ⟨1, 1⟩ })
          .done

/-- Whatever is done to a new world, and whatever runs in an engine, everybody is in their place. -/
theorem World.always_placed :
    (∀ (id : WorldId) (width height : UInt32) (kind : GridKind) (w : World),
      World.Steps (.new id (.new width height kind)) w → w.Placed) ∧
    ∀ (κ σ α : Type) (host : Host κ σ) (p : Program κ σ α) (world : WorldId) (settings : Settings)
      (state : σ) (budget : Nat), host.Within .keepsPlaces → p.Within .keepsPlaces →
        ((Session.opening world settings state budget).reached host p).engine.world.Placed := by
  refine ⟨fun id width height kind w hs => ?_,
    fun κ σ α host p world settings state budget hh hp => ?_⟩
  · exact ((Aligned.new id width height kind).steps hs).placed
  · exact (Session.aligned_of_moves (Session.reached_moves hh hp)).placed

/-- So it is in a world in which one entity stands on a tile, and in the run in which that entity is
removed while its trigger fires. -/
theorem World.always_placed_ambush :
    (∃ w : World, World.Steps (.new Engine.defaultWorld (.new 2 2 .square)) w ∧ w.Placed ∧
      w.entitiesAt ⟨1, 1⟩ = [⟨1⟩]) ∧
    (Host.removing ⟨1⟩).Within .keepsPlaces ∧ Session.ambush.Within .keepsPlaces ∧
      ((Session.opening Engine.defaultWorld {} () 100).reached (.removing ⟨1⟩)
        Session.ambush).engine.world.Placed := by
  have hspawn : Steps (.new Engine.defaultWorld (.new 2 2 .square)) _ :=
    .single (.spawn "guest" .npc (by decide +kernel))
  obtain ⟨w, hw, hat⟩ : ∃ w, ((World.new Engine.defaultWorld (.new 2 2 .square)).spawn "guest"
      .npc).2.place ⟨1⟩ ⟨1, 1⟩ = .ok w ∧ w.entitiesAt ⟨1, 1⟩ = [⟨1⟩] :=
    ⟨_, rfl, by decide +kernel⟩
  have hs := hspawn.tail (.place hw)
  have hh : (Host.removing ⟨1⟩).Within .keepsPlaces := fun _ _ => ⟨trivial, fun _ => trivial⟩
  have hp : Session.ambush.Within .keepsPlaces :=
    ⟨trivial, fun _ => ⟨trivial, fun _ => ⟨trivial, fun _ => ⟨trivial, fun _ => trivial⟩⟩⟩⟩
  exact ⟨⟨w, hs, always_placed.1 _ _ _ _ w hs, hat⟩, hh, hp,
    always_placed.2 Unit Unit Delivery _ _ _ _ _ _ hh hp⟩

end Encounter
