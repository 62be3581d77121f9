import Encounter.Proofs.Placement
import Encounter.Proofs.Protocol

/-!
# Entering blocked tiles

A move that is chosen for a turn is checked before it is announced and carried out afterwards. The
check asks whether the mover exists, whether the goal is on the grid and whether it is blocked.
Carrying it out asks the first two questions again (`World.move`) but not the third, so a listener
that walls up the goal meanwhile does not keep the mover out (`Session.enters_blocked`).

Nothing else lets a mover onto a blocked tile: an open tile becomes blocked only by a change that
tags or rewrites it (`Change.blocksMovement_eq_false`), and a run in which it becomes blocked has
such a change in it (`Session.open_or_walled`). `Session.enters_open` puts this together for the
turn of the current participant.
-/

set_option autoImplicit false

namespace Encounter

/-! ## Tags -/

namespace Grid

variable {g g' g'' : Grid} {p q : Position} {f : Tile → Tile} {x : EntityId}

/-- Both grids have the same tiles, as far as their tags tell. -/
def SameTags (g g' : Grid) : Prop :=
  ∀ p, (g'.tile? p).map (·.tags) = (g.tile? p).map (·.tags)

theorem SameTags.refl (g : Grid) : g.SameTags g := fun _ => rfl

theorem SameTags.trans (h : g.SameTags g') (h' : g'.SameTags g'') : g.SameTags g'' := fun p =>
  (h' p).trans (h p)

theorem sameTags_modifyTile (hf : ∀ tile, (f tile).tags = tile.tags) :
    g.SameTags (g.modifyTile p f) := by
  intro q
  rw [tile?_modifyTile]
  split
  · cases g.tile? q with
    | none => rfl
    | some tile => exact congrArg some (hf tile)
  · rfl

theorem sameTags_addOccupant : g.SameTags (g.addOccupant p x) :=
  sameTags_modifyTile fun tile => by split <;> rfl

theorem sameTags_removeOccupant : g.SameTags (g.removeOccupant p x) :=
  sameTags_modifyTile fun _ => rfl

theorem blocksMovement_eq :
    g.blocksMovement p = ((g.tile? p).map (·.tags.blocksMovement)).getD true := by
  unfold blocksMovement
  cases g.tile? p <;> rfl

theorem SameTags.blocksMovement (h : g.SameTags g') :
    g'.blocksMovement p = g.blocksMovement p := by
  have hp := congrArg (Option.map (·.blocksMovement)) (h p)
  simp only [Option.map_map, Function.comp_def] at hp
  rw [blocksMovement_eq, blocksMovement_eq, hp]

/-- A tile is rewritten, and not so that it becomes blocked. -/
theorem blocksMovement_modifyTile (hopen : g.blocksMovement q = false)
    (hf : p = q → ∀ tile, tile.tags.blocksMovement = false → (f tile).tags.blocksMovement = false) :
    (g.modifyTile p f).blocksMovement q = false := by
  rw [blocksMovement_eq] at hopen ⊢
  rw [tile?_modifyTile]
  cases htile : g.tile? q with
  | none => simp [htile] at hopen
  | some tile =>
    have htile' : tile.tags.blocksMovement = false := by simpa [htile] using hopen
    split
    next hpq => exact hf hpq tile htile'
    next => exact htile'

end Grid

namespace World

variable {w w' : World} {x : EntityId} {p : Position} {record : Entity}

theorem Relists.grid_eq (h : Relists w w') : w'.grid = w.grid := by
  induction h with
  | refl => rfl
  | tail _ h ih =>
    rw [← ih]
    cases h <;> rfl

theorem sameTags_vacated : w.grid.SameTags (w.vacated x record) := by
  unfold vacated
  split
  · exact Grid.sameTags_removeOccupant
  · exact .refl _

theorem insert_sameTags (h : w.insert record = .ok (x, w')) : w.grid.SameTags w'.grid := by
  obtain ⟨-, hg⟩ | ⟨p, -, -, hg⟩ := insert_grid h
  · rw [hg]
    exact .refl _
  · rw [hg]
    exact Grid.sameTags_addOccupant

theorem remove?_sameTags (h : w.remove? x = some (record, w')) : w.grid.SameTags w'.grid := by
  rw [remove?_grid h]
  exact sameTags_vacated

theorem place_sameTags (h : w.place x p = .ok w') : w.grid.SameTags w'.grid := by
  obtain ⟨record, -, -, hg, -⟩ := place_eq_ok h
  rw [hg]
  exact sameTags_vacated.trans Grid.sameTags_addOccupant

theorem move_sameTags {moved : Bool} (h : w.move x p = .ok (moved, w')) :
    w.grid.SameTags w'.grid := by
  unfold move at h
  split at h
  · cases h
  · split at h
    · cases h
      exact .refl _
    · obtain ⟨w₁, hplace, he⟩ := map_eq_ok.1 h
      cases he
      exact place_sameTags hplace

end World

/-! ## Changes -/

/-- Is the change one of a tile? -/
def Change.IsOfTile {κ α : Type} : Change κ α → Prop
  | .addTag _ _ | .removeTag _ _ | .editTile _ _ => True
  | _ => False

/-- May the change block the tile while it is open? It tags the tile so, or rewrites it. -/
def Change.Walls {κ α : Type} (goal : Position) : Change κ α → Prop
  | .addTag p tag => p = goal ∧ tag = .blocksMovement
  | .editTile p f => p = goal ∧
    ∃ tile : Tile, tile.tags.blocksMovement = false ∧ (f tile).tags.blocksMovement = true
  | _ => False

open Engine in
/-- A change of anything but a tile leaves the tags of all tiles as they are. -/
theorem Change.sameTags {κ α : Type} (c : Change κ α) (e : Engine κ) (h : ¬c.IsOfTile) :
    e.world.grid.SameTags (c.apply e).2.world.grid := by
  have hrefuse : ∀ {β : Type} {r : Except Failure (β × Engine κ)},
      (∀ b e', r = .ok (b, e') → e.world.grid.SameTags e'.world.grid) →
        e.world.grid.SameTags (e.orRefuse r).2.world.grid := fun hr =>
    orRefuse_cases (P := fun e' => e.world.grid.SameTags e'.world.grid) (.refl _) hr
  have hworld : ∀ {β : Type} {r : Except Failure (β × World)},
      (∀ b world, r = .ok (b, world) → e.world.grid.SameTags world.grid) →
        e.world.grid.SameTags (e.onWorldOrRefuse r).2.world.grid := fun hr =>
    onWorldOrRefuse_cases (P := fun e' => e.world.grid.SameTags e'.world.grid) (.refl _) hr
  have hrelists : ∀ {e' : Engine κ}, World.Relists e.world e'.world →
      e.world.grid.SameTags e'.world.grid := by
    intro e' hr
    rw [hr.grid_eq]
    exact .refl _
  cases c with
  | addTag | removeTag | editTile => exact absurd trivial h
  | insert record => exact hworld fun x world hi => World.insert_sameTags hi
  | place x p =>
    refine hworld fun _ world hp => ?_
    obtain ⟨w, hw, he⟩ := map_eq_ok.1 hp
    cases he
    exact World.place_sameTags hw
  | move x p => exact hworld fun moved world hm => World.move_sameTags hm
  | removeEntity x =>
    refine hrefuse fun removed e' hr => ?_
    obtain ⟨world, hw, rfl⟩ := removeEntity_eq_ok hr
    exact (hrelists (removeTriggers_relists _)).trans (World.remove?_sameTags hw)
  | register x t => exact hrefuse fun _ _ hr => hrelists (register_relists hr)
  | registerGlobal t =>
    show e.world.grid.SameTags (e.registerGlobal t).2.world.grid
    rw [registerGlobal_world]
    exact .refl _
  | attach x id =>
    refine hrefuse fun _ e' ha => ?_
    obtain ⟨e₁, ha, he⟩ := map_eq_ok.1 ha
    cases he
    exact hrelists (attach_relists ha)
  | removeTrigger id => exact hrefuse fun _ _ hr => hrelists (removeTrigger_relists hr)
  | addPresets x =>
    refine hrefuse fun ids e' ha => ?_
    obtain ⟨_, -, hall⟩ := addPresets_eq_ok ha
    exact hrelists (registerAll_relists hall)
  | load record =>
    refine hrefuse fun x e' hl => ?_
    obtain ⟨⟨⟨x, ids⟩, e₁⟩, hl, he⟩ := map_eq_ok.1 hl
    cases he
    obtain ⟨name, kind, stats, triggers, -, rfl, hall⟩ := load_eq_ok hl
    rw [(registerAll_relists hall).grid_eq]
    exact .refl _
  | resetEvents => exact hrelists (removeTriggers_relists _)
  | addConditionType | addReactionType | nameCondition | nameReaction =>
    refine hrefuse fun _ e' hr => ?_
    obtain ⟨_, -, he⟩ := map_eq_ok.1 hr
    cases he
    exact .refl _
  | dequeue =>
    simp only [apply, Engine.dequeue]
    split <;> exact .refl _
  | _ => exact .refl _

/-- An open tile stays open, unless the change may wall it up. -/
theorem Change.blocksMovement_eq_false {κ α : Type} {goal : Position} (c : Change κ α)
    (e : Engine κ) (hwalls : ¬c.Walls goal) (hopen : e.world.grid.blocksMovement goal = false) :
    (c.apply e).2.world.grid.blocksMovement goal = false := by
  have hother : ¬c.IsOfTile → (c.apply e).2.world.grid.blocksMovement goal = false := fun h => by
    rw [(c.sameTags e h).blocksMovement]
    exact hopen
  cases c with
  | addTag p tag =>
    refine Grid.blocksMovement_modifyTile hopen fun hp tile htile => ?_
    cases tag with
    | blocksMovement => exact absurd ⟨hp, rfl⟩ hwalls
    | _ => exact htile
  | removeTag p tag =>
    refine Grid.blocksMovement_modifyTile hopen fun _ tile htile => ?_
    cases tag with
    | blocksMovement => rfl
    | _ => exact htile
  | editTile p f =>
    refine Grid.blocksMovement_modifyTile hopen fun hp tile htile => ?_
    exact Bool.eq_false_iff.2 fun hblocks => hwalls ⟨hp, tile, htile, hblocks⟩
  | _ => exact hother id

/-! ## Runs -/

namespace Session

variable {κ σ : Type} {allowed : Licence κ σ} {s s' s'' : Session κ σ} {goal : Position}

/-- Does the tile let nobody in? -/
def Blocks (s : Session κ σ) (goal : Position) : Prop :=
  s.engine.world.grid.blocksMovement goal = true

instance : Decidable (s.Blocks goal) :=
  inferInstanceAs (Decidable (_ = true))

/-- On the way from one session to another an operation that is let through found the tile open and
left it blocked. -/
def Walled (allowed : Licence κ σ) (goal : Position) (s s' : Session κ σ) : Prop :=
  ∃ (s₁ s₂ : Session κ σ) (α : Type) (c : Change κ α),
    Moves allowed s s₁ ∧ allowed _ (.change c) ∧ c.Walls goal ∧ ¬s₁.Blocks goal ∧
      s₂.engine = (c.apply s₁.engine).2 ∧ s₂.Blocks goal ∧ Moves allowed s₂ s'

theorem Walled.move (h : Walled allowed goal s s') (hm : Move allowed s' s'') :
    Walled allowed goal s s'' := by
  obtain ⟨s₁, s₂, α, c, hbefore, hc, hwalls, hopen, he, hblocks, hafter⟩ := h
  exact ⟨s₁, s₂, α, c, hbefore, hc, hwalls, hopen, he, hblocks, hafter.tail hm⟩

/-- The operations that do not wall up a tile. -/
def sparing (goal : Position) : Licence κ σ
  | _, .change c => ¬c.Walls goal
  | _, _ => True

theorem not_walled_of_sparing : ¬Walled (sparing goal) goal s s' := by
  rintro ⟨s₁, s₂, α, c, -, hspares, hwalls, -⟩
  exact hspares hwalls

/-- Reactions and actions wall up nothing by themselves. -/
theorem allowed_of_walls {α : Type} {c : Change κ α} (h : allowed.Permits c)
    (hwalls : c.Walls goal) : allowed _ (.change c) := by
  cases h with
  | asked h => exact h
  | _ => exact hwalls.elim

/-- One move leaves an open tile open, or walls it up. -/
theorem open_or_walls_of_move (hm : Move allowed s s') (hopen : ¬s.Blocks goal) :
    ¬s'.Blocks goal ∨ ∃ (α : Type) (c : Change κ α), allowed _ (.change c) ∧ c.Walls goal ∧
      s'.engine = (c.apply s.engine).2 ∧ s'.Blocks goal := by
  cases hm with
  | change c hc hend hfit =>
    by_cases hwalls : c.Walls goal
    · by_cases hblocks : ((c.apply s.engine).2).world.grid.blocksMovement goal = true
      · exact .inr ⟨_, c, allowed_of_walls hc hwalls, hwalls, rfl, hblocks⟩
      · exact .inl hblocks
    · refine .inl fun hblocks => ?_
      have hstill := c.blocksMovement_eq_false s.engine hwalls (Bool.eq_false_iff.2 hopen)
      exact absurd hblocks (Bool.eq_false_iff.1 hstill)
  | strike target dice =>
    refine .inl fun hblocks => hopen ?_
    unfold Blocks Engine.strike at hblocks
    dsimp only at hblocks
    split at hblocks <;> exact hblocks
  | _ => exact .inl hopen

/-- A tile that is open in the first session is open in the last one, or was walled up on the way
and not opened since. -/
theorem open_or_walled (hm : Moves allowed s s') (hopen : ¬s.Blocks goal) :
    ¬s'.Blocks goal ∨ Walled allowed goal s s' := by
  induction hm with
  | refl => exact .inl hopen
  | tail hbefore hmove ih =>
    rename_i s₁ s₂
    obtain hstill | hwalled := ih
    · obtain hopen' | ⟨α, c, hc, hwalls, he, hblocks⟩ := open_or_walls_of_move hmove hstill
      · exact .inl hopen'
      · exact .inr ⟨s₁, s₂, α, c, hbefore, hc, hwalls, hstill, he, hblocks, .refl⟩
    · exact .inr (hwalled.move hmove)

end Session

/-! ## Turns -/

namespace Run

variable {κ σ : Type} {host : Host κ σ} {invoke : Invoke κ σ} {s : Session κ σ}
  {entity mover : EntityId} {action : Action κ} {goal : Position}

/-- How the turn of an entity begins that has chosen an action: what is left of it once it is
settled whether the action is carried out, and in which session. -/
inductive Onset (host : Host κ σ) (invoke : Invoke κ σ) (entity : EntityId) (action : Action κ)
    (s : Session κ σ) : EStateM.Result Stop (Session κ σ) (Except Failure TurnOutcome) → Prop
  | rejected {reason : String} (hinvalid : s.engine.objection host.objection action = some reason) :
      Onset host invoke entity action s (.ok (.ok (.rejected reason)) s)
  /-- The run stops in the announcement. -/
  | stopped {stop : Stop} {s₁ : Session κ σ}
      (hvalid : s.engine.objection host.objection action = none)
      (hstop : emit host invoke actionProposed
        (s.engine.announcement entity (action.describe host.describe)) s = .error stop s₁) :
      Onset host invoke entity action s (.error stop s₁)
  | unannounced {s₁ : Session κ σ} {d : Delivery} {failure : Failure}
      (hpropose : Proposes host invoke entity action s d s₁) (hd : d.outcome = .error failure) :
      Onset host invoke entity action s (.ok (.error failure) s₁)
  | contested {s₁ : Session κ σ} {d : Delivery}
      (hpropose : Proposes host invoke entity action s d s₁) (hd : d.outcome = .ok ())
      (hwaiting : s₁.engine.waiting ≠ []) :
      Onset host invoke entity action s
        ((settle host invoke >>= fun _ => pure (.ok .contested)) s₁)
  /-- The action is carried out, in the session to which the announcement has led. -/
  | carriedOut {s₁ : Session κ σ} {d : Delivery}
      (hpropose : Proposes host invoke entity action s d s₁) (hd : d.outcome = .ok ())
      (hnone : s₁.engine.waiting = []) :
      Onset host invoke entity action s (actAndAnnounce host invoke action d.payload s₁)

/-- Every turn begins in one of these ways. -/
theorem pursue_onset :
    Onset host invoke entity action s (pursue host invoke entity action s) := by
  cases hvalid : s.engine.objection host.objection action with
  | some reason =>
    rw [pursue, engine_bind]
    simp only [hvalid]
    exact .rejected hvalid
  | none =>
    cases hemit : emit host invoke actionProposed
        (s.engine.announcement entity (action.describe host.describe)) s with
    | error stop s₁ =>
      have hstop : pursue host invoke entity action s = .error stop s₁ := by
        rw [pursue, engine_bind]
        simp only [hvalid]
        exact bind_eq_error.2 (.inl hemit)
      rw [hstop]
      exact .stopped hvalid hemit
    | ok d s₁ =>
      have hpropose : Proposes host invoke entity action s d s₁ := ⟨hvalid, hemit⟩
      rw [pursue_of_proposes hpropose]
      cases hd : d.outcome with
      | error failure => exact .unannounced hpropose hd
      | ok =>
        by_cases hwaiting : s₁.engine.waiting = []
        · simp only [hwaiting, List.isEmpty_nil, if_true]
          exact .carriedOut hpropose hd hwaiting
        · simp only [List.isEmpty_iff, hwaiting, if_false]
          exact .contested hpropose hd hwaiting

/-- Once the actor has chosen, the action is pursued. -/
theorem takeTurn_of_choice {code : κ} {state : σ} {b : Nat}
    (hactor : s.engine.actors[entity]? = some code)
    (hchoice : host.decide code entity s.engine s.host = (some action, state))
    (hb : s.budget = b + 1) :
    takeTurn host invoke entity s =
      pursue host invoke entity action { s with host := state, budget := b } := by
  have hdecide : decide host entity s = .ok (some action) { s with host := state, budget := b } := by
    rw [decide, step_eq_ok, hactor]
    simp only [hchoice]
    exact ⟨b, hb, trivial, rfl⟩
  rw [takeTurn_eq, bind_of_ok hdecide]

theorem takeTurn_of_spent (hb : s.budget = 0) :
    takeTurn host invoke entity s = .error .spent s := by
  have hdecide : decide host entity s = .error .spent s :=
    bind_eq_error.2 (.inl (pay_of_spent hb))
  exact bind_eq_error.2 (.inl hdecide)

/-- A blocked goal is an objection to a move. -/
theorem objection_of_blocks (h : s.Blocks goal) :
    ∃ reason, s.engine.objection host.objection (.move mover goal) = some reason := by
  unfold Session.Blocks at h
  simp only [Engine.objection, h, if_true]
  split
  · exact ⟨_, rfl⟩
  · split <;> exact ⟨_, rfl⟩

end Run

namespace Session

variable {κ σ : Type} {allowed : Licence κ σ} {host : Host κ σ} {s : Session κ σ}
  {entity mover : EntityId} {goal : Position}

/-- Whoever is about to move has found the goal open, before the announcement. It is open still when
the announcement has ended, unless a listener has walled it up meanwhile. -/
theorem open_or_walled_of_proposes (hh : host.Within allowed) {depth : Nat} {d : Delivery}
    {s₁ : Session κ σ}
    (h : Run.Proposes host (Run.code host depth) entity (.move mover goal) s d s₁) :
    ¬s.Blocks goal ∧ (¬s₁.Blocks goal ∨ Walled allowed goal s s₁) := by
  have hopen : ¬s.Blocks goal := by
    intro hblocks
    obtain ⟨reason, hinvalid⟩ := Run.objection_of_blocks hblocks
    cases hinvalid.symm.trans h.valid
  have hcode := (Run.follows_traversal host).code hh depth
  have hmoves := ((Run.follows_traversal host).emit hcode _ _).moves h.emitted
  exact ⟨hopen, open_or_walled hmoves hopen⟩

/-- The turn of an entity whose actor has chosen a move. If the goal is blocked by then, the move is
rejected and nothing is done. The move is carried out only in a session to which its announcement
has led; there the goal is open, unless an operation of a listener has walled it up during the
announcement. -/
theorem enters_open (hh : host.Within allowed) (depth : Nat) {code : κ} {state : σ}
    (hcur : s.engine.order.current? = some entity)
    (hactor : s.engine.actors[entity]? = some code)
    (hchoice : host.decide code entity s.engine s.host = (some (.move mover goal), state)) :
    let turn := Run.turnOf host (Run.code host depth) s.engine.order.current? s
    (s.budget = 0 ∧ turn = .error .spent s) ∨
    ∃ b, s.budget = b + 1 ∧
      let s₀ : Session κ σ := { s with host := state, budget := b }
      Run.Onset host (Run.code host depth) entity (.move mover goal) s₀ turn ∧
      (s₀.Blocks goal → ∃ reason, turn = .ok (.ok (.rejected reason)) s₀) ∧
      ∀ d s₁, Run.Proposes host (Run.code host depth) entity (.move mover goal) s₀ d s₁ →
        ¬s₀.Blocks goal ∧ (s₁.Blocks goal → Walled allowed goal s₀ s₁) := by
  intro turn
  have hturn : turn = Run.takeTurn host (Run.code host depth) entity s :=
    congrArg (fun holder => Run.turnOf host (Run.code host depth) holder s) hcur
  cases hb : s.budget with
  | zero => exact .inl ⟨rfl, hturn.trans (Run.takeTurn_of_spent hb)⟩
  | succ b =>
    have hpursue := hturn.trans (Run.takeTurn_of_choice hactor hchoice hb)
    refine .inr ⟨b, rfl, ?_, fun hblocks => ?_, fun d s₁ hpropose => ?_⟩
    · rw [hpursue]
      exact Run.pursue_onset
    · obtain ⟨reason, hinvalid⟩ :
          ∃ reason, s.engine.objection host.objection (.move mover goal) = some reason :=
        Run.objection_of_blocks hblocks
      refine ⟨reason, ?_⟩
      rw [hpursue]
      simp only [Run.pursue, Run.engine_bind, hinvalid]
      rfl
    · obtain ⟨hopen, hstill | hwalled⟩ := open_or_walled_of_proposes hh hpropose
      · exact ⟨hopen, fun hblocks => absurd hblocks hstill⟩
      · exact ⟨hopen, fun _ => hwalled⟩

/-- Somebody stands in the corner and is to act, and code listens to what is about to happen. -/
def approach : Program Unit Unit Unit :=
  .perform (.change (.spawn "hero" .player)) fun hero =>
    .perform (.change (.place hero ⟨0, 0⟩)) fun _ =>
      .perform (.change (.setOrder [hero])) fun _ =>
        .perform (.change (.setActor hero ())) fun _ =>
          .perform (.change (.addHandler ())) fun handler =>
            .perform (.change (.subscribe actionProposed handler)) fun _ => .done ()

/-- The code blocks a tile, and every actor chooses to move out of the corner. -/
def barring (p : Position) : Host Unit Unit :=
  { Host.doing (.perform (.change (.addTag p .blocksMovement)) fun _ => .done ()) with
    decide := fun _ _ _ s => (some (.move ⟨1⟩ ⟨1, 0⟩), s) }

/-- The session in which the turn of the one in the corner begins. -/
def cornered (p : Position) : Session Unit Unit :=
  (opening Engine.defaultWorld { width := 2, height := 2 } () 100).reached (barring p) approach

/-- The session in which the one in the corner has chosen to move. -/
def leavingCorner (p : Position) : Session Unit Unit :=
  { cornered p with budget := (cornered p).budget - 1 }

/-- The announcement of the move out of the corner. -/
def announcing (p : Position) : Run Unit Unit Delivery :=
  Run.emit (barring p) (Run.code (barring p) 2) actionProposed
    ((leavingCorner p).engine.announcement ⟨1⟩
      ((Action.move ⟨1⟩ ⟨1, 0⟩).describe (barring p).describe))

/-- A listener that blocks another tile leaves the goal open. -/
theorem enters_open_beside : (barring ⟨0, 1⟩).Within (sparing ⟨1, 0⟩) ∧
    (cornered ⟨0, 1⟩).engine.order.current? = some ⟨1⟩ ∧
    (cornered ⟨0, 1⟩).engine.actors[(⟨1⟩ : EntityId)]? = some () ∧
    ∃ d s₁, Run.Proposes (barring ⟨0, 1⟩) (Run.code (barring ⟨0, 1⟩) 2) ⟨1⟩ (.move ⟨1⟩ ⟨1, 0⟩)
        (leavingCorner ⟨0, 1⟩) d s₁ ∧ s₁.Blocks ⟨0, 1⟩ ∧ ¬s₁.Blocks ⟨1, 0⟩ := by
  have hwithin : (barring ⟨0, 1⟩).Within (sparing ⟨1, 0⟩) := fun _ _ =>
    ⟨fun h => absurd h.1 (by decide), fun _ => trivial⟩
  -- stated of any session, so that nothing below has to be evaluated to see that terms agree
  have hopen : ∀ s : Session Unit Unit, s.engine.order.current? = some ⟨1⟩ →
      s.engine.actors[(⟨1⟩ : EntityId)]? = some () → s.budget ≠ 0 → ∀ d s₁,
        Run.Proposes (barring ⟨0, 1⟩) (Run.code (barring ⟨0, 1⟩) 2) ⟨1⟩ (.move ⟨1⟩ ⟨1, 0⟩)
          { s with budget := s.budget - 1 } d s₁ → ¬s₁.Blocks ⟨1, 0⟩ := by
    intro s hcur hactor hbudget d s₁ hpropose hblocks
    obtain ⟨hspent, -⟩ | ⟨b, hb, -, -, hproposed⟩ := enters_open hwithin 2 hcur hactor rfl
    · exact hbudget hspent
    · obtain rfl : b = s.budget - 1 := by omega
      exact not_walled_of_sparing ((hproposed d s₁ hpropose).2 hblocks)
  have hcur : (cornered ⟨0, 1⟩).engine.order.current? = some ⟨1⟩ := by decide +kernel
  have hactor : (cornered ⟨0, 1⟩).engine.actors[(⟨1⟩ : EntityId)]? = some () := by decide +kernel
  obtain ⟨d, s₁, hemit, hother⟩ := Run.ok_of_check (s := leavingCorner ⟨0, 1⟩)
    (announcing ⟨0, 1⟩) (fun _ s₁ => s₁.Blocks ⟨0, 1⟩) (by decide +kernel)
  have hpropose : Run.Proposes (barring ⟨0, 1⟩) (Run.code (barring ⟨0, 1⟩) 2) ⟨1⟩
      (.move ⟨1⟩ ⟨1, 0⟩) (leavingCorner ⟨0, 1⟩) d s₁ := ⟨by decide +kernel, hemit⟩
  exact ⟨hwithin, hcur, hactor, d, s₁, hpropose, hother,
    hopen _ hcur hactor (by decide +kernel) d s₁ hpropose⟩

/-- A listener that blocks the goal does not keep the mover out: the move has been checked before,
and it is carried out onto the blocked tile. -/
theorem enters_blocked : ∃ d s₁ s',
    (cornered ⟨1, 0⟩).engine.world.grid.occupants ⟨0, 0⟩ = [⟨1⟩] ∧
    (cornered ⟨1, 0⟩).engine.order.current? = some ⟨1⟩ ∧
    ¬(leavingCorner ⟨1, 0⟩).Blocks ⟨1, 0⟩ ∧
    Run.Proposes (barring ⟨1, 0⟩) (Run.code (barring ⟨1, 0⟩) 2) ⟨1⟩ (.move ⟨1⟩ ⟨1, 0⟩)
      (leavingCorner ⟨1, 0⟩) d s₁ ∧
    s₁.engine.world.grid.occupants ⟨0, 0⟩ = [⟨1⟩] ∧ s₁.Blocks ⟨1, 0⟩ ∧
    Run.playTurn (barring ⟨1, 0⟩) (Run.code (barring ⟨1, 0⟩) 2) (cornered ⟨1, 0⟩) =
      .ok (.ok .executed) s' ∧
    s'.engine.world.grid.occupants ⟨1, 0⟩ = [⟨1⟩] ∧ s'.Blocks ⟨1, 0⟩ := by
  obtain ⟨d, s₁, hemit, hbefore, hblocks⟩ := Run.ok_of_check (s := leavingCorner ⟨1, 0⟩)
    (announcing ⟨1, 0⟩)
    (fun _ s₁ => s₁.engine.world.grid.occupants ⟨0, 0⟩ = [⟨1⟩] ∧ s₁.Blocks ⟨1, 0⟩)
    (by decide +kernel)
  obtain ⟨answer, s', hplay, rfl, hafter, hblocks'⟩ := Run.ok_of_check (s := cornered ⟨1, 0⟩)
    (Run.playTurn (barring ⟨1, 0⟩) (Run.code (barring ⟨1, 0⟩) 2))
    (fun answer s' => answer = .ok .executed ∧
      s'.engine.world.grid.occupants ⟨1, 0⟩ = [⟨1⟩] ∧ s'.Blocks ⟨1, 0⟩) (by decide +kernel)
  have hstart : (cornered ⟨1, 0⟩).engine.world.grid.occupants ⟨0, 0⟩ = [⟨1⟩] := by decide +kernel
  have hcur : (cornered ⟨1, 0⟩).engine.order.current? = some ⟨1⟩ := by decide +kernel
  have hopen : ¬(leavingCorner ⟨1, 0⟩).Blocks ⟨1, 0⟩ := by decide +kernel
  exact ⟨d, s₁, s', hstart, hcur, hopen, ⟨by decide +kernel, hemit⟩, hbefore, hblocks, hplay,
    hafter, hblocks'⟩

end Session

end Encounter
