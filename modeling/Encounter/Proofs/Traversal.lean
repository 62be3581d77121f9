import Encounter.Proofs.Moves

/-!
# Going through a run

A judgement on runs that holds of the parts of which runs are put together, and of one run after
another, holds of every operation, of every program and of all code (`Run.Traversal.operation`,
`program` and `code`). Three parts are left to the judgement as wholes: a fire, given that reactions
are carried out (`fire`), a collection of due tasks, given that each of them is done (`collect`), and
the taking out of an interruption together with the note of it (`takeNext`). A judgement that holds
of any note about a link can go through a fire link by link (`Run.Sequencing.respond`).
-/

set_option autoImplicit false

namespace Encounter

/-! ## Collecting due tasks -/

/-- The ways to collect the tasks that are due. -/
inductive Dispatch where
  | nextTurn
  | startRound
  | endTurn

namespace Dispatch

variable {κ σ : Type}

/-- What the time is told by. -/
def calendar : Dispatch → Calendar
  | nextTurn => .turns
  | startRound => .rounds
  | endTurn => .rounds

/-- Takes what is due off the agenda. The number is the turn or the round for which it is due. -/
def gather (e : Engine κ) : Dispatch → (List (AgendaEntry (Deferred κ)) × UInt64) × Engine κ
  | nextTurn =>
    ((e.clock.advance.1, e.clock.advance.2.turn), { e with clock := e.clock.advance.2 })
  | startRound =>
    ((e.order.startRound.1, e.order.startRound.2.round), { e with order := e.order.startRound.2 })
  | endTurn => ((e.order.takeDue.1, e.order.takeDue.2.round), { e with order := e.order.takeDue.2 })

/-- The operation that collects in this way is let through. -/
def Within (allowed : Licence κ σ) : Dispatch → Prop
  | nextTurn => allowed _ .nextTurn
  | startRound => allowed _ .startRound
  | endTurn => allowed _ .playTurn

end Dispatch

/-- Does the notice tell of something that neither touches the tables of triggers and handlers nor
has to do with fires, with agendas or with the interruptions that wait? -/
def Notice.isRemark {κ : Type} : Notice κ → Bool
  | .emitted .. => true
  | .acting .. => true
  | _ => false

/-- Does the notice tell of a link of the trigger, which is firing? -/
def Notice.isOfLink {κ : Type} (id : TriggerId) : Notice κ → Bool
  | .asked i .. => i = id
  | .reacted i .. => i = id
  | _ => false

namespace Run

variable {κ σ : Type} (host : Host κ σ) (invoke : Invoke κ σ)

/-- Does a task, once it is written down that it was begun. -/
def doTask (d : Deferred κ) : Run κ σ (Except Failure Unit) := do
  match d.task with
  | .run code => return (← invoke code d.payload).outcome
  | .emit event => return (← emit host invoke event d.payload).outcome

theorem runTask_eq (collection : Nat) (d : Deferred κ) :
    runTask host invoke collection d = note (.running collection d) >>= fun _ =>
      doTask host invoke d := rfl

/-- Collects the tasks that are due and does them. -/
def collect (k : Dispatch) : Run κ σ (Except Failure UInt64) := do
  let (due, now) ← change fun e => k.gather e
  let outcome ← runDue host invoke k.calendar now due
  pure (outcome.map fun _ => now)

theorem nextTurn_eq : nextTurn host invoke = collect host invoke .nextTurn := rfl

theorem startRound_eq : startRound host invoke = collect host invoke .startRound := rfl

theorem endTurn_eq : endTurn host invoke = collect host invoke .endTurn >>= fun outcome =>
    (change fun e => ((), { e with order := e.order.next })) >>= fun _ =>
      pure (outcome.map fun _ => ()) := by
  have hmap : ∀ (outcome : Except Failure Unit) (now : UInt64),
      (outcome.map fun _ => now).map (fun _ => ()) = outcome := by
    intro outcome now
    cases outcome <;> rfl
  simp only [collect, bind_assoc, pure_bind, hmap]
  rfl

/-! ## Taking interruptions out -/

/-- Takes out the interruption that has waited longest, and writes down that it is settled. -/
def takeNext : Run κ σ (Option (Interruption κ)) := do
  match ← change Engine.dequeue with
  | none => pure none
  | some interruption =>
    note (.settling interruption)
    pure (some interruption)

/-- Settles an interruption, once it is written down that it was taken out. -/
def settleTaken (interruption : Interruption κ) : Run κ σ (Except Failure Unit) := do
  match interruption with
  | .contest reactor action =>
    let e ← engine
    match e.world.entity? reactor with
    | none => pure (.error (.unknownEntity reactor))
    | some entity =>
      let _ ← alert host (entity.name ++ " reacts to " ++ action)
      return (← emit host invoke reactionResolved (e.announcement reactor action)).outcome
  | .custom code => return (← invoke code {}).outcome

theorem settleAll_succ (rounds : Nat) : settleAll host invoke (rounds + 1) =
    takeNext >>= fun
      | none => pure []
      | some interruption => settleTaken host invoke interruption >>= fun outcome =>
          settleAll host invoke rounds >>= fun outcomes => pure (outcome :: outcomes) := by
  simp only [takeNext, bind_assoc]
  refine bind_congr fun first => ?_
  cases first with
  | none => simp only [pure_bind]
  | some interruption =>
    simp only [bind_assoc, pure_bind]
    rfl

/-! ## Chains -/

/-- Goes on with the rest of a chain once a link has reacted. -/
def follow (id : TriggerId) (place : Nat) (l : Link κ) (rest : List (Link κ)) (d : Delivery) :
    Run κ σ (Trigger κ × Delivery) :=
  match rest with
  | [] => pure (⟨l, []⟩, d)
  | next :: rest => do
    let (t, d) ← respond host invoke id (place + 1) next rest d.payload
    pure (⟨l, t.links⟩, d)

theorem respond_eq (id : TriggerId) (place : Nat) (l : Link κ) (rest : List (Link κ))
    (p : Payload) : respond host invoke id place l rest p = engine >>= fun e =>
      ask host l (e.turnFor p.world) p >>= fun answer =>
        note (.asked id place p (e.turnFor p.world) answer) >>= fun _ =>
          match answer with
          | .resting => pure (⟨l, rest⟩, .untouched p)
          | .declined => pure (⟨l, rest⟩, .untouched p)
          | .willing => react host invoke l.reaction p >>= fun d =>
            match d.outcome with
            | .error _ => pure (⟨l, rest⟩, d)
            | .ok () => note (.reacted id place (e.turnFor p.world)) >>= fun _ =>
              follow host invoke id place (l.recordFire (e.turnFor p.world)) rest d := by
  cases rest <;> unfold respond <;>
    refine bind_congr fun e => bind_congr fun answer => bind_congr fun _ => ?_
  all_goals
    cases answer with
    | resting | declined => rfl
    | willing => exact bind_congr fun d => by cases d.outcome <;> rfl

/-! ## Judgements -/

/-- What it takes to go through a sequence of steps that change nothing but the dice. -/
structure Sequencing (Holds : {α : Type} → Run κ σ α → Prop) : Prop where
  pure {α : Type} (a : α) : Holds (pure a)
  bind {α β : Type} {m : Run κ σ α} {f : α → Run κ σ β} (hm : Holds m) (hf : ∀ a, Holds (f a)) :
    Holds (m >>= f)
  get : Holds get
  attend {α : Type} {f : Engine κ → σ → α × Engine κ × σ}
    (hf : ∀ e s, ∃ roller, (f e s).2.1 = { e with roller }) : Holds (step f)

namespace Sequencing

variable {Holds : {α : Type} → Run κ σ α → Prop} {host invoke} (J : Sequencing Holds)
include J

theorem engine : Holds engine :=
  J.bind J.get fun _ => J.pure _

theorem ask (l : Link κ) (turn : Option UInt64) (p : Payload) : Holds (ask host l turn p) := by
  unfold Run.ask
  split
  · exact J.pure _
  · exact J.attend fun e s => ⟨_, rfl⟩

section
variable {id : TriggerId} (hn : ∀ n : Notice κ, n.isOfLink id = true → Holds (note n))
  (hr : ∀ r p, Holds (react host invoke r p))
include hn hr

theorem link {place : Nat} {l : Link κ} {rest : List (Link κ)} {p : Payload}
    (hf : ∀ l d, Holds (follow host invoke id place l rest d)) :
    Holds (respond host invoke id place l rest p) := by
  have hasked : ∀ turn answer, Holds (note (.asked id place p turn answer)) := fun _ _ =>
    hn _ (by simp [Notice.isOfLink])
  have hreacted : ∀ turn, Holds (note (.reacted id place turn)) := fun _ =>
    hn _ (by simp [Notice.isOfLink])
  rw [respond_eq]
  refine J.bind J.engine fun e => J.bind (J.ask l _ p) fun answer => J.bind (hasked _ _) fun _ => ?_
  cases answer with
  | resting | declined => exact J.pure _
  | willing =>
    refine J.bind (hr l.reaction p) fun d => ?_
    split
    · exact J.pure _
    · exact J.bind (hreacted _) fun _ => hf _ d

/-- A chain responds link by link. -/
theorem respond (place : Nat) (l : Link κ) (rest : List (Link κ)) (p : Payload) :
    Holds (respond host invoke id place l rest p) := by
  induction rest generalizing place l p with
  | nil => exact J.link hn hr fun _ _ => J.pure _
  | cons next rest ih => exact J.link hn hr fun _ d => J.bind (ih _ next d.payload) fun _ => J.pure _

end

end Sequencing

/-- What it takes to go through a run of which `allowed` lets the operations through. -/
structure Traversal (allowed : Licence κ σ) (host : Host κ σ)
    (Holds : {α : Type} → Run κ σ α → Prop) : Prop extends Sequencing Holds where
  throw {α : Type} (stop : Stop) : Holds (throw stop : Run κ σ α)
  pay : Holds pay
  remark {n : Notice κ} (hn : n.isRemark = true) : Holds (note n)
  makeChange {α : Type} {c : Change κ α} (hc : allowed.Permits c) : Holds (makeChange c)
  takeNext : Holds takeNext
  strike (target : EntityId) (dice : Dice) : Holds (change (·.strike target dice))
  pass (h : allowed _ .playTurn) :
    Holds (change fun e => ((), { e with order := e.order.next }))
  fire {invoke : Invoke κ σ} (hr : ∀ r p, Holds (react host invoke r p)) (id : TriggerId)
    (p : Payload) : Holds (fire host invoke id p)
  handle {invoke : Invoke κ σ} (hi : ∀ code p, Holds (invoke code p)) (id : HandlerId)
    (p : Payload) : Holds (serve host invoke (.handler id) p)
  collect {invoke : Invoke κ σ} (hd : ∀ d, Holds (doTask host invoke d)) (k : Dispatch)
    (hk : k.Within allowed) : Holds (collect host invoke k)

namespace Traversal

variable {α β : Type} {allowed : Licence κ σ} {Holds : {α : Type} → Run κ σ α → Prop} {host invoke}
  (J : Traversal allowed host Holds) (hi : ∀ code p, Holds (invoke code p))
include J

/-! ## Parts that run no code -/

theorem consult (f : σ → α × σ) : Holds (consult f) :=
  J.attend fun e _ => ⟨e.roller, rfl⟩

theorem alert (message : String) : Holds (alert host message) :=
  J.attend fun e _ => ⟨e.roller, rfl⟩

theorem play (file : String) : Holds (play host file) :=
  J.attend fun e s => ⟨e.roller, by split <;> rfl⟩

theorem silence : Holds (silence host) :=
  J.attend fun e _ => ⟨e.roller, rfl⟩

theorem decide (entity : EntityId) : Holds (decide host entity) :=
  J.attend fun e s => ⟨e.roller, by split <;> rfl⟩

/-! ## Serving several in turn -/

theorem untilFailure {serve : β → Payload → Run κ σ Delivery} (hs : ∀ b p, Holds (serve b p)) :
    ∀ (list : List β) (p : Payload), Holds (untilFailure serve list p)
  | [], _ => J.pure _
  | b :: rest, p => J.bind (hs b p) fun d => by
    split
    · exact untilFailure hs rest d.payload
    · exact J.pure d

theorem despiteFailures {serve : β → Payload → Run κ σ Delivery} (hs : ∀ b p, Holds (serve b p)) :
    ∀ (list : List β) (p : Payload), Holds (despiteFailures serve list p)
  | [], _ => J.pure _
  | b :: rest, p => J.bind (hs b p) fun d =>
    J.bind (despiteFailures hs rest d.payload) fun _ => J.pure _

/-! ## Firing -/

include hi

theorem react (r : Reaction κ) (p : Payload) : Holds (react host invoke r p) := by
  cases r with
  | damage type amount =>
    unfold Run.react
    dsimp only
    split
    · exact J.bind (J.makeChange (.damage _ amount)) fun _ => J.pure _
    · exact J.bind (J.pure _) fun _ => J.pure _
  | alert message => exact J.bind (J.alert message) fun _ => J.pure _
  | sound file => exact J.bind (J.play file) fun _ => J.pure _
  | schedule turns event =>
    exact J.bind (J.makeChange (.schedule turns event p)) fun _ => J.pure _
  | function name code => exact hi code p

/-! ## Events and tasks -/

theorem serve (subscriber : Subscriber) (p : Payload) : Holds (serve host invoke subscriber p) := by
  cases subscriber with
  | trigger id => exact J.fire (J.react hi) id p
  | handler id => exact J.handle hi id p

theorem serveEntity (event : String) (entity : EntityId) (p : Payload) :
    Holds (serveEntity host invoke event entity p) :=
  J.bind J.toSequencing.engine fun _ => J.untilFailure (J.fire (J.react hi)) _ p

theorem emit (event : String) (p : Payload) : Holds (emit host invoke event p) := by
  refine J.bind (J.remark rfl) fun _ => J.bind J.toSequencing.engine fun e => ?_
  split
  · exact J.despiteFailures (J.serveEntity hi event) _ p
  · exact J.untilFailure (J.serve hi) _ p

theorem doTask (d : Deferred κ) : Holds (doTask host invoke d) := by
  unfold Run.doTask
  split
  · exact J.bind (hi _ d.payload) fun _ => J.pure _
  · exact J.bind (J.emit hi _ d.payload) fun _ => J.pure _

theorem nextTurn (h : allowed _ .nextTurn) : Holds (nextTurn host invoke) := by
  rw [nextTurn_eq]
  exact J.collect (J.doTask hi) .nextTurn h

theorem startRound (h : allowed _ .startRound) : Holds (startRound host invoke) := by
  rw [startRound_eq]
  exact J.collect (J.doTask hi) .startRound h

/-! ## Interruptions -/

theorem settleTaken (interruption : Interruption κ) :
    Holds (settleTaken host invoke interruption) := by
  unfold Run.settleTaken
  split
  · refine J.bind J.toSequencing.engine fun e => ?_
    split
    · exact J.pure _
    · exact J.bind (J.alert _) fun _ => J.bind (J.emit hi _ _) fun _ => J.pure _
  · exact J.bind (hi _ _) fun _ => J.pure _

theorem settleAll (rounds : Nat) : Holds (settleAll host invoke rounds) := by
  induction rounds with
  | zero => exact J.throw .spent
  | succ rounds ih =>
    rw [settleAll_succ]
    refine J.bind J.takeNext fun first => ?_
    cases first with
    | none => exact J.pure _
    | some i => exact J.bind (J.settleTaken hi i) fun _ => J.bind ih fun _ => J.pure _

theorem settle : Holds (settle host invoke) :=
  J.bind J.get fun s => J.bind (J.settleAll hi s.budget) fun _ => J.pure _

/-! ## Turns -/

theorem act (action : Action κ) : Holds (act host invoke action) := by
  refine J.bind (J.remark rfl) fun _ => ?_
  split
  · refine J.bind (J.makeChange (.move _ _)) fun answer => ?_
    split
    · exact J.pure _
    · exact J.pure _
    · exact J.bind J.toSequencing.engine fun _ => J.bind (J.emit hi _ _) fun _ => J.pure _
  · exact J.strike _ _
  · exact J.bind (hi _ _) fun _ => J.pure _

theorem actAndAnnounce (action : Action κ) (p : Payload) :
    Holds (actAndAnnounce host invoke action p) := by
  refine J.bind (J.act hi action) fun outcome => ?_
  split
  · exact J.pure _
  · exact J.bind (J.emit hi _ p) fun _ => J.pure _

theorem takeTurn (entity : EntityId) : Holds (takeTurn host invoke entity) := by
  refine J.bind (J.decide entity) fun action => ?_
  split
  · exact J.pure _
  · refine J.bind J.toSequencing.engine fun e => ?_
    split
    · exact J.pure _
    · refine J.bind (J.emit hi _ _) fun d => ?_
      split
      · exact J.pure _
      · refine J.bind J.toSequencing.engine fun e => ?_
        split
        · exact J.actAndAnnounce hi _ d.payload
        · exact J.bind (J.settle hi) fun _ => J.pure _

theorem endTurn (h : allowed _ .playTurn) : Holds (endTurn host invoke) := by
  rw [endTurn_eq]
  exact J.bind (J.collect (J.doTask hi) .endTurn h) fun _ =>
    J.bind (J.pass h) fun _ => J.pure _

theorem playTurn (h : allowed _ .playTurn) : Holds (playTurn host invoke) := by
  unfold Run.playTurn
  refine J.bind J.toSequencing.engine fun e => ?_
  dsimp only
  split
  · exact J.bind (J.takeTurn hi _) fun _ => J.bind (J.endTurn hi h) fun _ => J.pure _
  · exact J.bind (J.pure _) fun _ => J.bind (J.endTurn hi h) fun _ => J.pure _

/-! ## Operations and programs -/

theorem operation {o : Operation κ σ α} (h : allowed _ o) : Holds (operation host invoke o) := by
  cases o with
  | look => exact J.toSequencing.engine
  | remember s => exact J.consult fun _ => ((), s)
  | change c => exact J.makeChange (.asked h)
  | emit event p => exact J.emit hi event p
  | fire id p => exact J.fire (J.react hi) id p
  | nextTurn => exact J.nextTurn hi h
  | startRound => exact J.startRound hi h
  | playTurn => exact J.playTurn hi h
  | settle => exact J.settle hi
  | alert message => exact J.alert message
  | play file => exact J.play file
  | silence => exact J.silence
  | _ => exact J.bind J.get fun _ => J.pure _

theorem program {p : Program κ σ α} (hp : p.Within allowed) : Holds (program host invoke p) := by
  induction p with
  | done a => exact J.pure a
  | perform operation next ih => exact J.bind (J.operation hi hp.1) fun b => ih b (hp.2 b)

omit hi in
theorem code (hh : host.Within allowed) :
    ∀ (depth : Nat) (c : κ) (p : Payload), Holds (code host depth c p)
  | 0, _, _ => J.throw .spent
  | depth + 1, c, p => J.bind J.pay fun _ => J.program (code hh depth) (hh c p)

end Traversal

end Run

end Encounter
