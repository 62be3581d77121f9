import Encounter.Proofs.Queue
import Encounter.Proofs.Serving

/-!
# The protocol of a turn

A turn that is played consists of its course (`Run.Course`), from the check of the chosen action up
to what comes of it, and of its close (`Run.Closing`): what is due in the round is done, and the turn
is passed on. Each of the ways a course can go says which parts there are to it, each of them once,
and in which sessions they begin and end; listeners, interruptions and tasks may do anything
meanwhile. `Session.turn_protocol` says that this is all there is to a turn, and that the close
comes after every course.

An action is contested by the interruptions that wait after its announcement. Where none waits when
the turn begins, one of them was put down meanwhile (`Session.contested_by_announcement`). One that
was left over from before does as well, and costs somebody else their action.
-/

set_option autoImplicit false

namespace Encounter

open Journal

namespace Run

variable {κ σ : Type} {host : Host κ σ} {invoke : Invoke κ σ} {s s' : Session κ σ}
  {entity : EntityId} {action : Action κ}

/-! ## The course of a turn -/

/-- The action is valid, and its announcement does what is said of `emit`. -/
structure Proposes (host : Host κ σ) (invoke : Invoke κ σ) (entity : EntityId) (action : Action κ)
    (s : Session κ σ) (d : Delivery) (s' : Session κ σ) : Prop where
  valid : s.engine.objection host.objection action = none
  emitted : emit host invoke actionProposed
    (s.engine.announcement entity (action.describe host.describe)) s = .ok d s'

/-- The ways in which the turn of an entity goes that has chosen an action, up to its close. -/
inductive Course (host : Host κ σ) (invoke : Invoke κ σ) (entity : EntityId) (action : Action κ) :
    Session κ σ → Except Failure TurnOutcome → Session κ σ → Prop
  /-- The action is not valid. It is neither announced nor carried out. -/
  | rejected {s : Session κ σ} {reason : String}
      (hinvalid : s.engine.objection host.objection action = some reason) :
      Course host invoke entity action s (.ok (.rejected reason)) s
  /-- The announcement fails, and that is all. -/
  | unannounced {s s' : Session κ σ} {d : Delivery} {failure : Failure}
      (hpropose : Proposes host invoke entity action s d s') (hd : d.outcome = .error failure) :
      Course host invoke entity action s (.error failure) s'
  /-- After the announcement interruptions wait. They are settled until none is left, and that is
  all. -/
  | contested {s s₁ s' : Session κ σ} {d : Delivery} {n : Nat}
      (hpropose : Proposes host invoke entity action s d s₁) (hd : d.outcome = .ok ())
      (hwaiting : s₁.engine.waiting ≠ []) (hsettle : settle host invoke s₁ = .ok n s')
      (hnone : s'.engine.waiting = []) :
      Course host invoke entity action s (.ok .contested) s'
  /-- The action is carried out and fails. It is not announced as done. -/
  | failed {s s₁ s' : Session κ σ} {d : Delivery} {failure : Failure}
      (hpropose : Proposes host invoke entity action s d s₁) (hd : d.outcome = .ok ())
      (hnone : s₁.engine.waiting = [])
      (hact : act host invoke action s₁ = .ok (.error failure) s') :
      Course host invoke entity action s (.error failure) s'
  /-- The action is carried out and announced as done, with the payload that the first announcement
  has left. -/
  | executed {s s₁ s₂ s' : Session κ σ} {d d' : Delivery}
      (hpropose : Proposes host invoke entity action s d s₁) (hd : d.outcome = .ok ())
      (hnone : s₁.engine.waiting = []) (hact : act host invoke action s₁ = .ok (.ok ()) s₂)
      (hdone : emit host invoke actionExecuted d.payload s₂ = .ok d' s') :
      Course host invoke entity action s (d'.outcome.map fun _ => .executed) s'

theorem settle_waiting {n : Nat} (h : settle host invoke s = .ok n s') :
    s'.engine.waiting = [] := by
  obtain ⟨done, hdone, -⟩ := settle_eq_ok h
  exact hdone.waiting

theorem actAndAnnounce_eq_ok {p : Payload} {taken : Except Failure TurnOutcome} :
    actAndAnnounce host invoke action p s = .ok taken s' ↔
      (∃ failure, act host invoke action s = .ok (.error failure) s' ∧ taken = .error failure) ∨
      ∃ s₁ d, act host invoke action s = .ok (.ok ()) s₁ ∧
        emit host invoke actionExecuted p s₁ = .ok d s' ∧
          taken = d.outcome.map fun _ => .executed := by
  rw [actAndAnnounce, bind_eq_ok]
  constructor
  · rintro ⟨outcome, s₁, hact, h⟩
    cases outcome with
    | error failure =>
      obtain ⟨rfl, rfl⟩ := pure_eq_ok.1 h
      exact .inl ⟨failure, hact, rfl⟩
    | ok =>
      obtain ⟨d, s₂, hdone, h⟩ := bind_eq_ok.1 h
      obtain ⟨rfl, rfl⟩ := pure_eq_ok.1 h
      exact .inr ⟨s₁, d, hact, hdone, rfl⟩
  · rintro (⟨failure, hact, rfl⟩ | ⟨s₁, d, hact, hdone, rfl⟩)
    · exact ⟨_, s', hact, rfl⟩
    · exact ⟨_, s₁, hact, bind_eq_ok.2 ⟨d, s', hdone, rfl⟩⟩

/-- The turn of an entity that has chosen an action, up to its close. -/
def pursue (host : Host κ σ) (invoke : Invoke κ σ) (entity : EntityId) (action : Action κ) :
    Run κ σ (Except Failure TurnOutcome) := do
  let e ← engine
  match e.objection host.objection action with
  | some reason => pure (.ok (.rejected reason))
  | none =>
    let d ← emit host invoke actionProposed
      (e.announcement entity (action.describe host.describe))
    match d.outcome with
    | .error failure => pure (.error failure)
    | .ok () =>
      if (← engine).waiting.isEmpty then actAndAnnounce host invoke action d.payload
      else
        let _ ← settle host invoke
        pure (.ok .contested)

theorem takeTurn_eq : takeTurn host invoke entity = decide host entity >>= fun
    | none => pure (.ok .idle)
    | some action => pursue host invoke entity action := rfl

theorem course_of_pursue {taken : Except Failure TurnOutcome}
    (h : pursue host invoke entity action s = .ok taken s') :
    Course host invoke entity action s taken s' := by
  rw [pursue, engine_bind] at h
  cases hvalid : s.engine.objection host.objection action with
  | some reason =>
    simp only [hvalid] at h
    obtain ⟨rfl, rfl⟩ := pure_eq_ok.1 h
    exact .rejected hvalid
  | none =>
    simp only [hvalid] at h
    obtain ⟨d, s₁, hemit, h⟩ := bind_eq_ok.1 h
    have hpropose : Proposes host invoke entity action s d s₁ := ⟨hvalid, hemit⟩
    cases hd : d.outcome with
    | error failure =>
      simp only [hd] at h
      obtain ⟨rfl, rfl⟩ := pure_eq_ok.1 h
      exact .unannounced hpropose hd
    | ok =>
      simp only [hd] at h
      rw [engine_bind] at h
      by_cases hwaiting : s₁.engine.waiting = []
      · simp only [hwaiting, List.isEmpty_nil, if_true] at h
        obtain ⟨failure, hact, rfl⟩ | ⟨s₂, d', hact, hdone, rfl⟩ := actAndAnnounce_eq_ok.1 h
        · exact .failed hpropose hd hwaiting hact
        · exact .executed hpropose hd hwaiting hact hdone
      · simp only [List.isEmpty_iff, hwaiting, if_false] at h
        obtain ⟨n, s₂, hsettle, h⟩ := bind_eq_ok.1 h
        obtain ⟨rfl, rfl⟩ := pure_eq_ok.1 h
        exact .contested hpropose hd hwaiting hsettle (settle_waiting hsettle)

/-- What is left to do of a turn, once the action has been announced. -/
theorem pursue_of_proposes {d : Delivery} {s₁ : Session κ σ}
    (hpropose : Proposes host invoke entity action s d s₁) :
    pursue host invoke entity action s = ((match d.outcome with
      | .error failure => pure (.error failure)
      | .ok () =>
        if s₁.engine.waiting.isEmpty then actAndAnnounce host invoke action d.payload
        else settle host invoke >>= fun _ => pure (.ok .contested)) :
      Run κ σ (Except Failure TurnOutcome)) s₁ := by
  rw [pursue, engine_bind]
  simp only [hpropose.valid]
  rw [bind_of_ok hpropose.emitted]
  cases d.outcome <;> rfl

theorem pursue_of_course {taken : Except Failure TurnOutcome}
    (h : Course host invoke entity action s taken s') :
    pursue host invoke entity action s = .ok taken s' := by
  cases h with
  | rejected hinvalid =>
    rw [pursue, engine_bind]
    simp only [hinvalid]
    rfl
  | unannounced hpropose hd =>
    rw [pursue_of_proposes hpropose, hd]
    rfl
  | contested hpropose hd hwaiting hsettle =>
    rw [pursue_of_proposes hpropose, hd]
    simp only [List.isEmpty_iff, hwaiting, if_false]
    rw [bind_of_ok hsettle]
    rfl
  | failed hpropose hd hnone hact =>
    rw [pursue_of_proposes hpropose, hd]
    simp only [hnone, List.isEmpty_nil, if_true]
    exact actAndAnnounce_eq_ok.2 (.inl ⟨_, hact, rfl⟩)
  | executed hpropose hd hnone hact hdone =>
    rw [pursue_of_proposes hpropose, hd]
    simp only [hnone, List.isEmpty_nil, if_true]
    exact actAndAnnounce_eq_ok.2 (.inr ⟨_, _, hact, hdone, rfl⟩)

/-- Once the actor has chosen, the turn takes its course. -/
theorem takeTurn_eq_ok {code : κ} {state : σ} {taken : Except Failure TurnOutcome}
    (hactor : s.engine.actors[entity]? = some code)
    (hchoice : host.decide code entity s.engine s.host = (some action, state)) :
    takeTurn host invoke entity s = .ok taken s' ↔ ∃ b, s.budget = b + 1 ∧
      Course host invoke entity action { s with host := state, budget := b } taken s' := by
  have hdecide : ∀ choice s₁, decide host entity s = .ok choice s₁ ↔
      ∃ b, s.budget = b + 1 ∧ choice = some action ∧
        s₁ = { s with host := state, budget := b } := by
    intro choice s₁
    rw [decide, step_eq_ok, hactor]
    simp only [hchoice]
  rw [takeTurn_eq, bind_eq_ok]
  constructor
  · rintro ⟨choice, s₁, h, hcourse⟩
    obtain ⟨b, hb, rfl, rfl⟩ := (hdecide choice s₁).1 h
    exact ⟨b, hb, course_of_pursue hcourse⟩
  · rintro ⟨b, hb, hcourse⟩
    exact ⟨_, _, (hdecide _ _).2 ⟨b, hb, rfl, rfl⟩, pursue_of_course hcourse⟩

/-- The course of a contested action. -/
theorem Course.waiting_of_contested {taken : Except Failure TurnOutcome}
    (h : Course host invoke entity action s taken s') (ht : taken = .ok .contested) :
    ∃ d s₁, Proposes host invoke entity action s d s₁ ∧ s₁.engine.waiting ≠ [] := by
  cases h with
  | contested hpropose hd hwaiting => exact ⟨_, _, hpropose, hwaiting⟩
  | executed =>
    obtain ⟨_, -, h⟩ := Encounter.map_eq_ok.1 ht
    cases h
  | _ => cases ht

/-! ## The close of a turn -/

/-- How a turn is closed. All that is due in the round is taken off the agenda and done, each task
once and whatever comes of the others; then the turn is passed on. -/
inductive Closing (host : Host κ σ) (invoke : Invoke κ σ) :
    Session κ σ → Except Failure Unit → Session κ σ → Prop
  | intro {s s₁ : Session κ σ} {b b' : Nat} {outcomes : List (Except Failure Unit)}
      (hb : s.budget = b + 1)
      (hdue : (s.engine.order.takeDue.1.map (·.item)).mapM
        (runTask host invoke (s.journal.countP Notice.isCollected))
        { s with
          engine := { s.engine with order := s.engine.order.takeDue.2 }
          journal := .collected .rounds s.engine.order.round
            (s.engine.order.takeDue.1.map (·.item)) :: s.journal
          budget := b } = .ok outcomes s₁)
      (hb' : s₁.budget = b' + 1) :
      Closing host invoke s (firstOf outcomes) { s₁ with
        engine := { s₁.engine with order := s₁.engine.order.next }
        budget := b' }

theorem map_eq_ok {α β : Type} {f : α → β} {m : Run κ σ α} {b : β} :
    (f <$> m) s = .ok b s' ↔ ∃ a, m s = .ok a s' ∧ f a = b := by
  rw [map_eq_pure_bind, bind_eq_ok]
  constructor
  · rintro ⟨a, s₁, ha, h⟩
    obtain ⟨rfl, rfl⟩ := pure_eq_ok.1 h
    exact ⟨a, ha, rfl⟩
  · rintro ⟨a, ha, rfl⟩
    exact ⟨a, s', ha, rfl⟩

theorem runDue_eq_ok {calendar : Calendar} {now : UInt64} {due : List (AgendaEntry (Deferred κ))}
    {outcome : Except Failure Unit} :
    runDue host invoke calendar now due s = .ok outcome s' ↔
      ∃ outcomes, (due.map (·.item)).mapM
        (runTask host invoke (s.journal.countP Notice.isCollected))
        { s with journal := .collected calendar now (due.map (·.item)) :: s.journal } =
          .ok outcomes s' ∧ firstOf outcomes = outcome := by
  rw [← map_eq_ok, ← all_eq, all_map]
  rfl

theorem endTurn_eq_ok {ended : Except Failure Unit} :
    endTurn host invoke s = .ok ended s' ↔ Closing host invoke s ended s' := by
  rw [endTurn, bind_eq_ok]
  constructor
  · rintro ⟨due, s₁, htake, h⟩
    obtain ⟨b, hb, rfl, rfl⟩ := change_eq_ok.1 htake
    obtain ⟨outcome, s₂, hdue, h⟩ := bind_eq_ok.1 h
    obtain ⟨_, s₃, hpass, h⟩ := bind_eq_ok.1 h
    obtain ⟨b', hb', -, rfl⟩ := change_eq_ok.1 hpass
    obtain ⟨rfl, rfl⟩ := pure_eq_ok.1 h
    obtain ⟨outcomes, hall, rfl⟩ := runDue_eq_ok.1 hdue
    exact .intro hb hall hb'
  · rintro ⟨hb, hdue, hb'⟩
    refine ⟨_, _, change_eq_ok.2 ⟨_, hb, rfl, rfl⟩, bind_eq_ok.2 ⟨_, _, ?_, bind_eq_ok.2
      ⟨(), _, change_eq_ok.2 ⟨_, hb', rfl, rfl⟩, rfl⟩⟩⟩
    exact runDue_eq_ok.2 ⟨_, hdue, rfl⟩

/-! ## Both together -/

/-- The turn of whoever holds it, up to its close. -/
def turnOf (host : Host κ σ) (invoke : Invoke κ σ) :
    Option EntityId → Run κ σ (Except Failure TurnOutcome)
  | some entity => takeTurn host invoke entity
  | none => pure (.ok .idle)

theorem playTurn_eq : playTurn host invoke = engine >>= fun e =>
    turnOf host invoke e.order.current? >>= fun outcome =>
      endTurn host invoke >>= fun ended =>
        pure (outcome.bind fun outcome => ended.map fun _ => outcome) := by
  refine bind_congr fun e => ?_
  cases e.order.current? <;> rfl

/-- A failure of the course counts before one of the close. -/
theorem playTurn_eq_ok {answer : Except Failure TurnOutcome} :
    playTurn host invoke s = .ok answer s' ↔ ∃ taken s₁ ended,
      turnOf host invoke s.engine.order.current? s = .ok taken s₁ ∧
        Closing host invoke s₁ ended s' ∧
          (∀ failure, taken = .error failure → answer = .error failure) ∧
            ∀ outcome, taken = .ok outcome → answer = ended.map fun _ => outcome := by
  rw [playTurn_eq, engine_bind]
  simp only [bind_eq_ok, pure_eq_ok, endTurn_eq_ok]
  constructor
  · rintro ⟨taken, s₁, htaken, ended, s₂, hclosing, rfl, rfl⟩
    refine ⟨taken, s₁, ended, htaken, hclosing, ?_, ?_⟩
    · rintro failure rfl
      rfl
    · rintro outcome rfl
      rfl
  · rintro ⟨taken, s₁, ended, htaken, hclosing, hfailed, hdone⟩
    refine ⟨taken, s₁, htaken, ended, s', hclosing, ?_, rfl⟩
    cases taken with
    | error failure => exact (hfailed failure rfl).symm
    | ok outcome => exact (hdone outcome rfl).symm

/-- A turn that succeeds tells what came of its course. -/
theorem taken_of_ok {outcome : TurnOutcome} {taken : Except Failure TurnOutcome}
    {ended : Except Failure Unit}
    (hfailed : ∀ failure, taken = .error failure → Except.ok outcome = .error failure)
    (hdone : ∀ o, taken = .ok o → Except.ok outcome = ended.map fun _ => o) :
    taken = .ok outcome := by
  cases taken with
  | error failure => cases hfailed failure rfl
  | ok o =>
    obtain ⟨_, -, rfl⟩ := Encounter.map_eq_ok.1 (hdone o rfl).symm
    rfl

theorem decide_session {choice : Option (Action κ)} (h : decide host entity s = .ok choice s') :
    ∃ state b, s' = { s with host := state, budget := b } := by
  obtain ⟨b, -, -, rfl⟩ := step_eq_ok.1 h
  split <;> exact ⟨_, b, rfl⟩

end Run

namespace Session

/-- A turn in which the actor of the current participant chooses an action comes to its end if and
only if its course does and then its close; and a failure of the course counts before one of the
close. -/
theorem turn_protocol {κ σ : Type} {host : Host κ σ} {invoke : Invoke κ σ} {s s' : Session κ σ}
    {entity : EntityId} {code : κ} {action : Action κ} {state : σ}
    {answer : Except Failure TurnOutcome} (hcur : s.engine.order.current? = some entity)
    (hactor : s.engine.actors[entity]? = some code)
    (hchoice : host.decide code entity s.engine s.host = (some action, state)) :
    Run.playTurn host invoke s = .ok answer s' ↔ ∃ b taken s₁ ended, s.budget = b + 1 ∧
      Run.Course host invoke entity action { s with host := state, budget := b } taken s₁ ∧
        Run.Closing host invoke s₁ ended s' ∧
          (∀ failure, taken = .error failure → answer = .error failure) ∧
            ∀ outcome, taken = .ok outcome → answer = ended.map fun _ => outcome := by
  rw [Run.playTurn_eq_ok, hcur]
  constructor
  · rintro ⟨taken, s₁, ended, htaken, hrest⟩
    obtain ⟨b, hb, hcourse⟩ := (Run.takeTurn_eq_ok hactor hchoice).1 htaken
    exact ⟨b, taken, s₁, ended, hb, hcourse, hrest⟩
  · rintro ⟨b, taken, s₁, ended, hb, hcourse, hrest⟩
    exact ⟨taken, s₁, ended, (Run.takeTurn_eq_ok hactor hchoice).2 ⟨b, hb, hcourse⟩, hrest⟩

/-- One entity acts, and code listens to what it is about to do. -/
def challenge : Program Unit Unit Unit :=
  .perform (.change (.spawn "first" .npc)) fun first =>
    .perform (.change (.setOrder [first])) fun _ =>
      .perform (.change (.setActor first ())) fun _ =>
        .perform (.change (.addHandler ())) fun handler =>
          .perform (.change (.subscribe actionProposed handler)) fun _ => .done ()

/-- The code puts down an interruption. -/
def objecting : Program Unit Unit Unit :=
  .perform (.change (.enqueue (.contest ⟨1⟩ "act"))) .done

/-- When the one who listens objects, the turn ends in a contest. -/
theorem challenge_contested : ∃ s s' : Session Unit Unit,
    s = (opening Engine.defaultWorld {} () 100).reached (.doing objecting) challenge ∧
      s.engine.order.current? = some ⟨1⟩ ∧ s.engine.actors[(⟨1⟩ : EntityId)]? = some () ∧
        s.engine.waiting = [] ∧ Run.playTurn (.doing objecting) (Run.code (.doing objecting) 2) s =
          .ok (.ok .contested) s' := by
  obtain ⟨s, hs⟩ : ∃ s : Session Unit Unit, s =
      (opening Engine.defaultWorld {} () 100).reached (.doing objecting) challenge := ⟨_, rfl⟩
  have hcur : s.engine.order.current? = some ⟨1⟩ := by
    rw [hs]
    decide +kernel
  have hactor : s.engine.actors[(⟨1⟩ : EntityId)]? = some () := by
    rw [hs]
    decide +kernel
  have hempty : s.engine.waiting = [] := by
    rw [hs]
    decide +kernel
  obtain ⟨answer, s', h, rfl⟩ := Run.ok_of_check (s := s)
    (Run.playTurn (.doing objecting) (Run.code (.doing objecting) 2))
    (fun answer _ => answer = .ok .contested) (by rw [hs]; decide +kernel)
  exact ⟨s, s', hs, hcur, hactor, hempty, h⟩

/-- So it is when the one who listens objects: the turn takes the course of a contest. -/
theorem turn_protocol_challenge : ∃ s s' : Session Unit Unit,
    s = (opening Engine.defaultWorld {} () 100).reached (.doing objecting) challenge ∧
      s.engine.order.current? = some ⟨1⟩ ∧ s.engine.actors[(⟨1⟩ : EntityId)]? = some () ∧
        Run.playTurn (.doing objecting) (Run.code (.doing objecting) 2) s =
          .ok (.ok .contested) s' ∧
        ∃ b s₁ ended, Run.Course (.doing objecting) (Run.code (.doing objecting) 2) ⟨1⟩
            (.custom ()) { s with budget := b } (.ok .contested) s₁ ∧
          Run.Closing (.doing objecting) (Run.code (.doing objecting) 2) s₁ ended s' := by
  obtain ⟨s, s', hs, hcur, hactor, -, h⟩ := challenge_contested
  obtain ⟨b, taken, s₁, ended, -, hcourse, hclosing, hfailed, hdone⟩ :=
    (turn_protocol hcur hactor rfl).1 h
  cases Run.taken_of_ok hfailed hdone
  exact ⟨s, s', hs, hcur, hactor, h, b, s₁, ended, hcourse, hclosing⟩

/-! ## What contests an action -/

/-- Interruptions wait after the announcement of a contested action. They were put down meanwhile,
or waited before; so if none waited when the turn began, one was put down meanwhile. -/
theorem contested_by_announcement {κ σ : Type} {host : Host κ σ} {depth : Nat} {s s' : Session κ σ}
    (h : Run.playTurn host (Run.code host depth) s = .ok (.ok .contested) s') :
    ∃ entity action state b d s₁ ns, s.engine.order.current? = some entity ∧
      Run.Proposes host (Run.code host depth) entity action { s with host := state, budget := b }
        d s₁ ∧
      s₁.journal = ns ++ s.journal ∧ s₁.engine.waiting ≠ [] ∧
      taken ns ++ s₁.engine.waiting = s.engine.waiting ++ enqueued ns ∧
      (s.engine.waiting = [] → ∃ i, .enqueued i ∈ ns) := by
  obtain ⟨taken, s₂, ended, htaken, -, hfailed, hdone⟩ := Run.playTurn_eq_ok.1 h
  cases Run.taken_of_ok hfailed hdone
  cases hcur : s.engine.order.current? with
  | none =>
    rw [hcur] at htaken
    cases htaken
  | some entity =>
    rw [hcur, Run.turnOf, Run.takeTurn_eq] at htaken
    obtain ⟨choice, s₃, hdecide, hcourse⟩ := Run.bind_eq_ok.1 htaken
    obtain ⟨state, b, rfl⟩ := Run.decide_session hdecide
    cases choice with
    | none => cases hcourse
    | some action =>
      obtain ⟨d, s₁, hpropose, hwaiting⟩ :=
        (Run.course_of_pursue hcourse).waiting_of_contested rfl
      have hcode := (Run.follows_traversal host).code host.within_free depth
      have hm := ((Run.follows_traversal host).emit hcode _ _).moves hpropose.emitted
      obtain ⟨ns, hj, hline⟩ := queues_moves hm
      refine ⟨entity, action, state, b, d, s₁, ns, rfl, hpropose, hj, hwaiting, hline, ?_⟩
      intro hempty
      -- what waits now was put down meanwhile, if it did not wait before
      have hnew : enqueued ns ≠ [] := by
        intro hnone
        rw [show s.engine.waiting = [] from hempty, hnone] at hline
        exact hwaiting (List.append_eq_nil_iff.1 hline).2
      obtain ⟨i, hi⟩ := List.exists_mem_of_ne_nil _ hnew
      exact ⟨i, mem_enqueued.1 hi⟩

/-- So it is when the one who listens objects, and nothing waits before. -/
theorem contested_by_announcement_challenge : ∃ s s' : Session Unit Unit,
    s = (opening Engine.defaultWorld {} () 100).reached (.doing objecting) challenge ∧
      s.engine.waiting = [] ∧ Run.playTurn (.doing objecting) (Run.code (.doing objecting) 2) s =
        .ok (.ok .contested) s' ∧
      ∃ d s₁ ns i, (∃ action state b, Run.Proposes (.doing objecting)
          (Run.code (.doing objecting) 2) ⟨1⟩ action { s with host := state, budget := b } d s₁) ∧
        s₁.journal = ns ++ s.journal ∧ .enqueued i ∈ ns := by
  obtain ⟨s, s', hs, hcur, -, hempty, h⟩ := challenge_contested
  obtain ⟨entity, action, state, b, d, s₁, ns, hholder, hpropose, hj, -, -, hnew⟩ :=
    contested_by_announcement h
  cases hcur.symm.trans hholder
  obtain ⟨i, hi⟩ := hnew hempty
  exact ⟨s, s', hs, hempty, h, d, s₁, ns, i, ⟨action, state, b, hpropose⟩, hj, hi⟩

/-- Two entities act, and the first has had its turn. Nobody listens. -/
def grudge : Program Unit Unit Unit :=
  .perform (.change (.spawn "first" .npc)) fun first =>
    .perform (.change (.spawn "second" .npc)) fun second =>
      .perform (.change (.setOrder [first, second])) fun _ =>
        .perform (.change (.setActor first ())) fun _ =>
          .perform (.change (.setActor second ())) fun _ =>
            .perform .playTurn fun _ => .done ()

/-- What the action of the first has put down contests the action of the second, though nothing is
put down while that is announced, nor at all in that turn. -/
theorem contested_by_leftover : ∃ s s' : Session Unit Unit,
    s = (opening Engine.defaultWorld {} () 100).reached (.doing objecting) grudge ∧
      s.engine.order.current? = some ⟨2⟩ ∧
        Run.playTurn (.doing objecting) (Run.code (.doing objecting) 2) s =
          .ok (.ok .contested) s' ∧
        enqueued s'.journal = enqueued s.journal := by
  obtain ⟨s, hs⟩ : ∃ s : Session Unit Unit, s =
      (opening Engine.defaultWorld {} () 100).reached (.doing objecting) grudge := ⟨_, rfl⟩
  have hcur : s.engine.order.current? = some ⟨2⟩ := by
    rw [hs]
    decide +kernel
  obtain ⟨answer, s', h, rfl, hquiet⟩ := Run.ok_of_check (s := s)
    (Run.playTurn (.doing objecting) (Run.code (.doing objecting) 2))
    (fun answer s' => answer = .ok .contested ∧ enqueued s'.journal = enqueued s.journal)
    (by rw [hs]; decide +kernel)
  exact ⟨s, s', hs, hcur, h, hquiet⟩

end Session

end Encounter
