import Encounter.Engine.Execution
import Encounter.Proofs.Journal
import Encounter.Proofs.World
import Mathlib.Logic.Relation

/-!
# The moves of a run

`Move allowed s s'`: one thing happens in a session, as part of running operations that `allowed`
lets through. `Session.reached_moves` says that the session to which a program leads, at its end or
wherever the run stops, comes from the first one by such moves; what every move keeps holds
therefore at every moment of every run. `Session.run_underway` adds that a run that comes to its
end has ended every fire that it began.

The judgement on the way is `Run.Leads m s post`: `m`, started in `s`, makes moves only, and if it
ends, its answer and its last session satisfy `post`. `Run.Follows m` is the case in which no fire
is left over.
-/

set_option autoImplicit false

namespace Encounter

/-- Which operations are let through. -/
abbrev Licence (κ σ : Type) :=
  ∀ α : Type, Operation κ σ α → Prop

/-- All operations are let through. -/
def Licence.free {κ σ : Type} : Licence κ σ := fun _ _ => True

/-- A program all of whose operations are let through, whatever is answered. -/
def Program.Within {κ σ α : Type} (allowed : Licence κ σ) : Program κ σ α → Prop
  | .done _ => True
  | .perform operation next => allowed _ operation ∧ ∀ b, (next b).Within allowed

/-- A host all of whose programs use only operations that are let through. -/
def Host.Within {κ σ : Type} (allowed : Licence κ σ) (host : Host κ σ) : Prop :=
  ∀ code p, (host.behaviour code p).Within allowed

/-- A host with one piece of code, which removes an entity. Every actor chooses to run it. -/
def Host.removing (entity : EntityId) : Host Unit Unit where
  holds _ _ s := (true, s)
  behaviour _ p := .perform (.change (.removeEntity entity)) fun _ => .done (.untouched p)
  decide _ _ _ s := (some (.custom ()), s)
  objection _ _ := none
  describe _ := "leave"
  alerted _ s := s
  play _ s := (.ok (), s)
  silence s := s

theorem Program.within_free {κ σ α : Type} (p : Program κ σ α) : p.Within .free := by
  induction p with
  | done a => trivial
  | perform operation next ih => exact ⟨trivial, ih⟩

theorem Host.within_free {κ σ : Type} (host : Host κ σ) : host.Within .free := fun code p =>
  Program.within_free (host.behaviour code p)

/-- The changes that occur in runs: those that are let through as operations, and those that
reactions and actions make themselves. -/
inductive Licence.Permits {κ σ : Type} (allowed : Licence κ σ) : {α : Type} → Change κ α → Prop
  | asked {α : Type} {c : Change κ α} (h : allowed _ (.change c)) : Permits allowed c
  | damage (target : EntityId) (amount : Int64) : Permits allowed (.damage target amount)
  | schedule (turns : UInt64) (event : String) (p : Payload) :
      Permits allowed (.schedule turns (.emit event) p)
  | move (entity : EntityId) (goal : Position) : Permits allowed (.move entity goal)

/-- Does the notice tell of neither fires nor the tables of triggers and handlers? -/
def Notice.isAside {κ : Type} : Notice κ → Bool
  | .emitted .. => true
  | .asked .. => true
  | .reacted .. => true
  | .collected .. => true
  | .running .. => true
  | .acting .. => true
  | .settling .. => true
  | _ => false

/-- Does the notice tell of an interruption? -/
def Notice.isOfQueue {κ : Type} : Notice κ → Bool
  | .enqueued .. => true
  | .settling .. => true
  | .withdrawn .. => true
  | _ => false

/-- The trigger without its recorded fires. -/
def Trigger.unfired {κ : Type} (t : Trigger κ) : Trigger κ :=
  ⟨{ t.head with lastFired := none }, t.rest.map fun l => { l with lastFired := none }⟩

section
variable {κ σ : Type} (allowed : Licence κ σ)

/-- One thing happens in a session. -/
inductive Move : Session κ σ → Session κ σ → Prop
  /-- Part of the budget is spent. -/
  | pay {s : Session κ σ} (budget : Nat) : Move s { s with budget }
  /-- The host is asked or told something, and it may roll the engine's dice. -/
  | attend {s : Session κ σ} (roller : Roller) (host : σ) :
      Move s { s with engine := { s.engine with roller }, host }
  | note {s : Session κ σ} (n : Notice κ) (h : n.isAside = true) (hq : n.isOfQueue = false) :
      Move s { s with journal := n :: s.journal }
  | change {s : Session κ σ} {α : Type} (c : Change κ α) (h : allowed.Permits c)
      (hend : c.isEndless s.engine = false) (hfit : c.overflows s.engine = false) :
      Move s { s with
        engine := (c.apply s.engine).2
        journal := c.notices s.engine (c.apply s.engine).2 ++ s.journal }
  | checkOut {s : Session κ σ} {id : TriggerId} {t : Trigger κ}
      (h : s.engine.shelf.get? id = some t) :
      Move s { s with
        engine := { s.engine with shelf := (s.engine.shelf.checkOut id).2 }
        journal := .firing id t :: s.journal }
  /-- The innermost fire ends. -/
  | checkIn {s : Session κ σ} {id : TriggerId} {t t' : Trigger κ}
      {outer : List (TriggerId × Trigger κ)} (h : s.underway = (id, t) :: outer)
      (ht : t'.unfired = t.unfired) :
      Move s { s with
        engine := { s.engine with shelf := s.engine.shelf.checkIn id t' }
        journal := .fired id t' :: s.journal }
  | handle {s : Session κ σ} {id : HandlerId} {code : κ}
      (h : s.engine.listeners.handler? id = some code) :
      Move s { s with journal := .handling id :: s.journal }
  | tick {s : Session κ σ} (h : allowed _ .nextTurn) :
      Move s { s with engine := { s.engine with clock := s.engine.clock.advance.2 } }
  | startRound {s : Session κ σ} (h : allowed _ .startRound) :
      Move s { s with engine := { s.engine with order := s.engine.order.startRound.2 } }
  | collect {s : Session κ σ} (h : allowed _ .playTurn) :
      Move s { s with engine := { s.engine with order := s.engine.order.takeDue.2 } }
  | pass {s : Session κ σ} (h : allowed _ .playTurn) :
      Move s { s with engine := { s.engine with order := s.engine.order.next } }
  /-- The interruption that has waited longest is taken out to be settled. -/
  | settle {s : Session κ σ} {i : Interruption κ} {waiting : List (Interruption κ)}
      (h : s.engine.waiting = i :: waiting) :
      Move s { s with
        engine := { s.engine with waiting }
        journal := .settling i :: s.journal }
  | strike {s : Session κ σ} (target : EntityId) (dice : Dice) :
      Move s { s with engine := (s.engine.strike target dice).2 }

/-- Things happen one after the other. -/
abbrev Moves : Session κ σ → Session κ σ → Prop :=
  Relation.ReflTransGen (Move allowed)

end

section
variable {κ σ : Type} {allowed : Licence κ σ} {s s' : Session κ σ}

/-- What every move keeps is kept. -/
theorem Moves.keep {P : Session κ σ → Prop} (hstep : ∀ s s', Move allowed s s' → P s → P s')
    (h : Moves allowed s s') (hs : P s) : P s' := by
  induction h with
  | refl => exact hs
  | tail _ hmove ih => exact hstep _ _ hmove ih

end

/-! ## Kinds of moves -/

/-- Both engines have the same triggers and listeners, entity by entity. -/
structure Engine.SameTables {κ : Type} (e e' : Engine κ) : Prop where
  shelf : e'.shelf = e.shelf
  listeners : e'.listeners = e.listeners
  roster : e'.roster = e.roster
  owners : e'.owners = e.owners
  triggers : ∀ x, (e'.world.entity? x).map (·.triggers) = (e.world.entity? x).map (·.triggers)

namespace Engine

variable {κ : Type} {e e' : Engine κ}

theorem SameTables.of_world (hs : e'.shelf = e.shelf) (hl : e'.listeners = e.listeners)
    (hr : e'.roster = e.roster) (ho : e'.owners = e.owners) (hw : e'.world = e.world) :
    e.SameTables e' :=
  ⟨hs, hl, hr, ho, fun _ => by rw [hw]⟩

theorem sameTables_modifyEntity {x : EntityId} {f : Entity → Entity}
    (hf : ∀ record, (f record).triggers = record.triggers) :
    e.SameTables { e with world := e.world.modifyEntity x f } := by
  refine ⟨rfl, rfl, rfl, rfl, fun y => ?_⟩
  dsimp only
  rw [World.entity?_modifyEntity]
  split
  · cases e.world.entity? y with
    | none => rfl
    | some record => exact congrArg some (hf record)
  · rfl

theorem sameTables_dequeue (e : Engine κ) : e.SameTables e.dequeue.2 := by
  unfold dequeue
  split <;> exact .of_world rfl rfl rfl rfl rfl

theorem sameTables_strike (e : Engine κ) (target : EntityId) (dice : Dice) :
    e.SameTables (e.strike target dice).2 := by
  unfold strike
  dsimp only
  split
  · obtain ⟨hs, hl, hr, ho, ht⟩ := @sameTables_modifyEntity κ e target
      (·.takeDamage (dice.roll e.roller).1) fun _ => rfl
    exact ⟨hs, hl, hr, ho, ht⟩
  · exact .of_world rfl rfl rfl rfl rfl

end Engine

/-- The kinds of moves, as the tables of triggers and listeners see them, and what each writes into
the journal. -/
inductive Move.Kind {κ σ : Type} (allowed : Licence κ σ) :
    Session κ σ → List (Notice κ) → Session κ σ → Prop
  /-- The tables stay as they are. -/
  | quiet {s s' : Session κ σ} (ns : List (Notice κ)) (he : s.engine.SameTables s'.engine)
      (hj : s'.journal = ns ++ s.journal) (hn : ∀ n ∈ ns, n.isAside = true) : Kind allowed s ns s'
  | change {s : Session κ σ} {α : Type} (c : Change κ α) (h : allowed.Permits c)
      (hend : c.isEndless s.engine = false) (hfit : c.overflows s.engine = false) :
      Kind allowed s (c.notices s.engine (c.apply s.engine).2) { s with
        engine := (c.apply s.engine).2
        journal := c.notices s.engine (c.apply s.engine).2 ++ s.journal }
  | checkOut {s : Session κ σ} {id : TriggerId} {t : Trigger κ}
      (h : s.engine.shelf.get? id = some t) :
      Kind allowed s [.firing id t] { s with
        engine := { s.engine with shelf := (s.engine.shelf.checkOut id).2 }
        journal := .firing id t :: s.journal }
  | checkIn {s : Session κ σ} {id : TriggerId} {t t' : Trigger κ}
      {outer : List (TriggerId × Trigger κ)} (h : s.underway = (id, t) :: outer)
      (ht : t'.unfired = t.unfired) :
      Kind allowed s [.fired id t'] { s with
        engine := { s.engine with shelf := s.engine.shelf.checkIn id t' }
        journal := .fired id t' :: s.journal }
  | handle {s : Session κ σ} {id : HandlerId} {code : κ}
      (h : s.engine.listeners.handler? id = some code) :
      Kind allowed s [.handling id] { s with journal := .handling id :: s.journal }

section
variable {κ σ : Type} {allowed : Licence κ σ} {s s' : Session κ σ}

/-- Every move is of a kind, and adds to the journal what that kind writes. -/
theorem Move.exists_kind (h : Move allowed s s') :
    ∃ ns, s'.journal = ns ++ s.journal ∧ Move.Kind allowed s ns s' := by
  have hnil : ∀ n ∈ ([] : List (Notice κ)), n.isAside = true := fun _ h => by cases h
  cases h with
  | note n h _ =>
    exact ⟨[n], rfl, .quiet [n] (.of_world rfl rfl rfl rfl rfl) rfl (by simpa using h)⟩
  | change c h hend hfit => exact ⟨_, rfl, .change c h hend hfit⟩
  | checkOut h => exact ⟨[_], rfl, .checkOut h⟩
  | checkIn h ht => exact ⟨[_], rfl, .checkIn h ht⟩
  | handle h => exact ⟨[_], rfl, .handle h⟩
  | settle h =>
    exact ⟨[_], rfl, .quiet [_] (.of_world rfl rfl rfl rfl rfl) rfl (by simp [Notice.isAside])⟩
  | strike target dice =>
    exact ⟨[], rfl, .quiet [] (Engine.sameTables_strike _ target dice) rfl hnil⟩
  | _ => exact ⟨[], rfl, .quiet [] (.of_world rfl rfl rfl rfl rfl) rfl hnil⟩

/-- The kind of a move that added `ns` to the journal. -/
theorem Move.kind (h : Move allowed s s') {ns : List (Notice κ)}
    (hj : s'.journal = ns ++ s.journal) : Move.Kind allowed s ns s' := by
  obtain ⟨ns', hj', hkind⟩ := h.exists_kind
  cases List.append_cancel_right (hj'.symm.trans hj)
  exact hkind

/-- A move only adds to the journal. -/
theorem Move.journal (h : Move allowed s s') : ∃ ns, s'.journal = ns ++ s.journal :=
  h.exists_kind.imp fun _ => And.left

theorem Moves.journal (h : Moves allowed s s') : ∃ ns, s'.journal = ns ++ s.journal := by
  induction h with
  | refl => exact ⟨[], rfl⟩
  | tail _ hm ih =>
    obtain ⟨earlier, hj⟩ := ih
    obtain ⟨ns, hj'⟩ := hm.journal
    exact ⟨ns ++ earlier, by rw [hj', hj, List.append_assoc]⟩

end

namespace Run

variable {κ σ α β : Type} {allowed : Licence κ σ} {m : Run κ σ α} {s : Session κ σ}

/-- Started in `s`, the run makes moves only; if it ends, its answer and the session satisfy
`post`. -/
def Leads (allowed : Licence κ σ) (m : Run κ σ α) (s : Session κ σ)
    (post : α → Session κ σ → Prop) : Prop :=
  match m s with
  | .ok a s' => Moves allowed s s' ∧ post a s'
  | .error _ s' => Moves allowed s s'

/-- Wherever it is started, the run makes moves only; if it ends, no fire is left over. -/
def Follows (allowed : Licence κ σ) (m : Run κ σ α) : Prop :=
  ∀ s, Leads allowed m s fun _ s' => s'.underway = s.underway

/-! ## Leading from one session to another -/

theorem Leads.bind {f : α → Run κ σ β} {P : α → Session κ σ → Prop} {Q : β → Session κ σ → Prop}
    (hm : Leads allowed m s P) (hf : ∀ a s', P a s' → Leads allowed (f a) s' Q) :
    Leads allowed (m >>= f) s Q := by
  unfold Leads at hm ⊢
  show match EStateM.bind m f s with | .ok a s' => _ | .error _ s' => _
  unfold EStateM.bind
  cases h : m s with
  | error stop s' => rw [h] at hm; exact hm
  | ok a s' =>
    rw [h] at hm
    have hf := hf a s' hm.2
    unfold Leads at hf
    simp only
    cases h' : f a s' with
    | error stop s'' => rw [h'] at hf; exact hm.1.trans hf
    | ok b s'' => rw [h'] at hf; exact ⟨hm.1.trans hf.1, hf.2⟩

theorem Follows.moves {a : α} {s' : Session κ σ} (h : Follows allowed m) (hok : m s = .ok a s') :
    Moves allowed s s' := by
  have hs := h s
  rw [Leads, hok] at hs
  exact hs.1

theorem Leads.mono {P Q : α → Session κ σ → Prop} (h : Leads allowed m s P)
    (hpq : ∀ a s', m s = .ok a s' → P a s' → Q a s') : Leads allowed m s Q := by
  unfold Leads at h ⊢
  cases hm : m s with
  | error stop s' => rw [hm] at h; exact h
  | ok a s' => rw [hm] at h; exact ⟨h.1, hpq a s' hm h.2⟩

theorem leads_pure {post : α → Session κ σ → Prop} {a : α} (h : post a s) :
    Leads allowed (pure a) s post :=
  ⟨.refl, h⟩

theorem leads_get {post : Session κ σ → Session κ σ → Prop} (h : post s s) :
    Leads allowed get s post :=
  ⟨.refl, h⟩

theorem leads_engine {post : Engine κ → Session κ σ → Prop} (h : post s.engine s) :
    Leads allowed engine s post :=
  ⟨.refl, h⟩

/-- A step pays, and then makes a move of its own. -/
theorem leads_step {f : Engine κ → σ → α × Engine κ × σ} {post : α → Session κ σ → Prop}
    (hmove : ∀ s : Session κ σ, Move allowed s
      { s with engine := (f s.engine s.host).2.1, host := (f s.engine s.host).2.2 })
    (hpost : ∀ budget, post (f s.engine s.host).1
      ⟨(f s.engine s.host).2.1, (f s.engine s.host).2.2, s.journal, budget⟩) :
    Leads allowed (step f) s post := by
  obtain ⟨e, host, journal, budget⟩ := s
  cases budget with
  | zero => exact .single (.pay 0)
  | succ budget => exact ⟨.tail (.single (.pay budget)) (hmove _), hpost budget⟩

/-! ## Following moves -/

theorem Follows.bind {f : α → Run κ σ β} (hm : Follows allowed m)
    (hf : ∀ a, Follows allowed (f a)) : Follows allowed (m >>= f) := fun s =>
  (hm s).bind fun a s' hs => (hf a s').mono fun _ _ _ h => h.trans hs

theorem follows_pure (a : α) : Follows allowed (pure a : Run κ σ α) := fun _ => leads_pure rfl

theorem follows_get : Follows allowed (get : Run κ σ (Session κ σ)) := fun _ => leads_get rfl

theorem follows_throw (stop : Stop) : Follows allowed (throw stop : Run κ σ α) := fun _ =>
  Relation.ReflTransGen.refl

theorem follows_spend : Follows allowed (spend : Run κ σ α) := fun _ => .single (.pay 0)

theorem follows_note {n : Notice κ} (h : n.isAside = true) (hq : n.isOfQueue = false) :
    Follows allowed (note n : Run κ σ Unit) := fun s =>
  ⟨.single (.note n h hq), Journal.underway_cons (by cases n <;> first | rfl | cases h)⟩

theorem follows_pay : Follows allowed (pay : Run κ σ Unit) := by
  rintro ⟨e, host, journal, budget⟩
  cases budget with
  | zero => exact Relation.ReflTransGen.refl
  | succ budget => exact ⟨.single (.pay budget), rfl⟩

/-- A step that moves the session without writing into the journal. -/
theorem follows_step {f : Engine κ → σ → α × Engine κ × σ}
    (hmove : ∀ s : Session κ σ, Move allowed s
      { s with engine := (f s.engine s.host).2.1, host := (f s.engine s.host).2.2 }) :
    Follows allowed (step f) := fun _ => leads_step hmove fun _ => rfl

/-- A step that asks or tells the host something and rolls dice at most. -/
theorem follows_attend {f : Engine κ → σ → α × Engine κ × σ}
    (hf : ∀ e s, ∃ roller, (f e s).2.1 = { e with roller }) : Follows allowed (step f) :=
  follows_step fun s => by
    obtain ⟨roller, h⟩ := hf s.engine s.host
    rw [h]
    exact .attend roller _

theorem follows_makeChange {c : Change κ α} (hc : allowed.Permits c) :
    Follows allowed (makeChange c : Run κ σ α) := by
  intro s
  refine (follows_pay s).bind fun _ s₁ h₁ => ?_
  have he : Leads allowed engine s₁ fun e s' => e = s'.engine ∧ s'.underway = s₁.underway :=
    leads_engine ⟨rfl, rfl⟩
  refine he.bind fun e s₂ ⟨he, h₂⟩ => ?_
  rw [he, ← h₁, ← h₂]
  split
  · exact follows_spend s₂
  · rename_i hend
    split
    · exact follows_throw .overflow s₂
    · rename_i hfit
      exact ⟨.single (.change c hc (by simpa using hend) (by simpa using hfit)),
        Journal.underway_append fun _ => Journal.isOfFire_of_mem_notices⟩

end Run

end Encounter
