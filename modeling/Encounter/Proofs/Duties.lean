import Encounter.Proofs.Following
import Encounter.Proofs.Registration

/-!
# What a run does to its agendas

As far as agendas are concerned a run puts tasks down, collects those that are due, and works each
collection off, task by task. While a task is done others may be put down and collected, so the
collections that are not yet worked off form a stack, the duties. `Passage` is one such event, and
`Session.reached_passages` says that every run is made of them; it comes to its end without a duty
left over.
-/

set_option autoImplicit false

namespace Encounter

/-! ## Time -/

/-- Does the notice tell of an agenda? -/
def Notice.isOfAgenda {κ : Type} : Notice κ → Bool
  | .scheduled .. => true
  | .collected .. => true
  | .running .. => true
  | _ => false

/-- Both engines have the same clock, the same round and the same tasks for later rounds. -/
structure Engine.SameTime {κ : Type} (e e' : Engine κ) : Prop where
  clock : e'.clock = e.clock
  round : e'.order.round = e.order.round
  agenda : e'.order.agenda = e.order.agenda

/-- Does the change leave the agendas alone? -/
def Change.IsTimeless {κ α : Type} : Change κ α → Prop
  | .schedule .. => False
  | .scheduleRounds .. => False
  | _ => True

namespace Engine

variable {κ : Type} {x : EntityId}

theorem SameTime.refl (e : Engine κ) : e.SameTime e := ⟨rfl, rfl, rfl⟩

theorem agenda_remove (o : TurnOrder (Deferred κ)) :
    (o.remove x).agenda = o.agenda ∧ (o.remove x).round = o.round := by
  unfold TurnOrder.remove
  split <;> exact ⟨rfl, rfl⟩

end Engine

theorem Change.clock_apply {κ α : Type} {c : Change κ α} (hc : c.IsTimeless) (e : Engine κ) :
    (c.apply e).2.clock = e.clock := by
  have hsteady : c.IsSteady → (c.apply e).2.clock = e.clock := fun h => (c.steady h e).1
  cases c with
  | schedule => exact hc.elim
  | enqueue => rfl
  | dequeue =>
    simp only [apply, Engine.dequeue]
    split <;> rfl
  | _ => exact hsteady trivial

theorem Change.turn_apply {κ α : Type} {e : Engine κ} (c : Change κ α) :
    (c.apply e).2.clock.turn = e.clock.turn := by
  have hclock : c.IsTimeless → (c.apply e).2.clock.turn = e.clock.turn := fun hc =>
    congrArg Clock.turn (clock_apply hc e)
  cases c with
  | schedule | scheduleRounds => rfl
  | _ => exact hclock trivial

open Engine in
/-- A change touches the agendas only by putting a task down. -/
theorem Change.sameTime {κ α : Type} {c : Change κ α} (hc : c.IsTimeless) (e : Engine κ) :
    e.SameTime (c.apply e).2 := by
  have hclock := clock_apply hc e
  have hapart : c.IsApart → e.SameTime (c.apply e).2 := fun h =>
    ⟨hclock, congrArg TurnOrder.round (c.apart h e).order,
      congrArg TurnOrder.agenda (c.apart h e).order⟩
  cases c with
  | schedule | scheduleRounds => exact hc.elim
  | removeEntity x =>
    refine orRefuse_cases (P := e.SameTime) (.refl e) fun removed e' h => ?_
    obtain ⟨world, -, rfl⟩ := removeEntity_eq_ok h
    have horder := (removeTriggers_apart (e := e) (e.triggersOf x)).order
    have hremove := agenda_remove (x := x) (e.removeTriggers (e.triggersOf x)).order
    rw [horder] at hremove
    refine ⟨(removeTriggers_rest e _).clock, ?_, ?_⟩
    · show ((e.removeTriggers _).order.remove x).round = _
      rw [horder, hremove.2]
    · show ((e.removeTriggers _).order.remove x).agenda = _
      rw [horder, hremove.1]
  | addHandler | removeHandler | setOrder => exact ⟨hclock, rfl, rfl⟩
  | _ => exact hapart trivial

namespace Journal

variable {κ α : Type}

theorem isOfAgenda_of_mem_notices {c : Change κ α} {before after : Engine κ} {n : Notice κ}
    (hc : c.IsTimeless) (hn : n ∈ c.notices before after) : n.isOfAgenda = false := by
  simp only [Change.notices, List.mem_append, List.mem_map] at hn
  obtain ⟨id, -, rfl⟩ | ⟨id, -, rfl⟩ | hn := hn
  · rfl
  · rfl
  · cases c with
    | schedule | scheduleRounds => exact hc.elim
    | dequeue =>
      rw [Change.remarks, Option.mem_toList, Option.map_eq_some_iff] at hn
      obtain ⟨_, -, rfl⟩ := hn
      rfl
    | editTrigger | removeHandler =>
      rw [Change.remarks] at hn
      split at hn <;> simp_all [Notice.isOfAgenda]
    | addHandler | enqueue => simp_all [Change.remarks, Notice.isOfAgenda]
    | _ => cases hn

end Journal

/-! ## Passages -/

/-- A collection that is being worked off: its number, and the tasks that are left to do. -/
structure Duty (κ : Type) where
  collection : Nat
  left : List (Deferred κ)

/-- Nothing happened to the agendas. -/
structure Session.Calm {κ σ : Type} (s s' : Session κ σ) : Prop where
  time : s.engine.SameTime s'.engine
  journal : ∃ ns, s'.journal = ns ++ s.journal ∧ ∀ n ∈ ns, n.isOfAgenda = false

/-- One thing happens, as far as agendas are concerned. The duties stand beside the session,
innermost first. -/
inductive Passage {κ σ : Type} :
    List (Duty κ) × Session κ σ → List (Duty κ) × Session κ σ → Prop
  | calm {duties : List (Duty κ)} {s s' : Session κ σ} (h : s.Calm s') :
      Passage (duties, s) (duties, s')
  | schedule {duties : List (Duty κ)} {s : Session κ σ} (turns : UInt64) (task : Task κ)
      (p : Payload) : Passage (duties, s) (duties, { s with
        engine := s.engine.schedule turns task p
        journal := .scheduled .turns s.engine.clock.turn turns ⟨task, p⟩ :: s.journal })
  | scheduleRounds {duties : List (Duty κ)} {s : Session κ σ} (rounds : UInt64) (task : Task κ)
      (p : Payload) : Passage (duties, s) (duties, { s with
        engine := s.engine.scheduleRounds rounds task p
        journal := .scheduled .rounds s.engine.order.round rounds ⟨task, p⟩ :: s.journal })
  /-- Due tasks are collected, and become the innermost duty. -/
  | collect {duties : List (Duty κ)} {s : Session κ σ} (k : Dispatch) :
      Passage (duties, s)
        (⟨s.journal.countP Notice.isCollected, (k.gather s.engine).1.1.map (·.item)⟩ :: duties,
          { s with
            engine := (k.gather s.engine).2
            journal := .collected k.calendar (k.gather s.engine).1.2
              ((k.gather s.engine).1.1.map (·.item)) :: s.journal })
  /-- The next task of the innermost duty is begun. -/
  | begin {duties : List (Duty κ)} {s : Session κ σ} {c : Nat} {d : Deferred κ}
      {left : List (Deferred κ)} :
      Passage (⟨c, d :: left⟩ :: duties, s)
        (⟨c, left⟩ :: duties, { s with journal := .running c d :: s.journal })
  /-- The innermost duty is done. -/
  | finish {duties : List (Duty κ)} {s : Session κ σ} {c : Nat} :
      Passage (⟨c, []⟩ :: duties, s) (duties, s)

/-- Things happen one after the other, as far as agendas are concerned. -/
abbrev Passages {κ σ : Type} :
    List (Duty κ) × Session κ σ → List (Duty κ) × Session κ σ → Prop :=
  Relation.ReflTransGen Passage

namespace Run

variable {κ σ α β : Type}

/-- Started in `s`, the run is made of passages. If it ends it has turned the duties `before` into
`after`, on top of those in `base`; if it stops on the way those in `base` are still there. -/
def Works (base before after : List (Duty κ)) (m : Run κ σ α) (s : Session κ σ) : Prop :=
  match m s with
  | .ok _ s' => Passages (before ++ base, s) (after ++ base, s')
  | .error _ s' => ∃ begun, Passages (before ++ base, s) (begun ++ base, s')

/-- Wherever it is started, the run is made of passages, and if it ends the duties are what they
were. -/
def Passes (m : Run κ σ α) : Prop :=
  ∀ base s, Works base [] [] m s

section
variable {base before between after : List (Duty κ)} {m : Run κ σ α} {s : Session κ σ}

theorem Works.bind {f : α → Run κ σ β} (hm : Works base before between m s)
    (hf : ∀ a s', m s = .ok a s' → Works base between after (f a) s') :
    Works base before after (m >>= f) s := by
  unfold Works at hm ⊢
  show match EStateM.bind m f s with | .ok _ s' => _ | .error _ s' => _
  unfold EStateM.bind
  cases h : m s with
  | error stop s' => rwa [h] at hm
  | ok a s' =>
    rw [h] at hm
    have hfa := hf a s' h
    unfold Works at hfa
    simp only
    cases h' : f a s' with
    | ok b s'' =>
      rw [h'] at hfa
      exact hm.trans hfa
    | error stop s'' =>
      rw [h'] at hfa
      exact hfa.imp fun _ => hm.trans

theorem Works.of_passage {m' : Run κ σ α} {s' : Session κ σ}
    (hm : Works base between after m' s') (h : Passage (before ++ base, s) (between ++ base, s'))
    (heq : m s = m' s') : Works base before after m s := by
  unfold Works at hm ⊢
  rw [heq]
  cases hms : m' s' with
  | ok a s'' =>
    rw [hms] at hm
    exact .head h hm
  | error stop s'' =>
    rw [hms] at hm
    exact hm.imp fun _ => .head h

/-- Duties from before stay below. -/
theorem Passes.works (hm : Passes m) (duties : List (Duty κ)) : Works base duties duties m s := by
  have h := hm (duties ++ base) s
  unfold Works at h ⊢
  cases hms : m s with
  | ok a s' => rwa [hms] at h
  | error stop s' =>
    rw [hms] at h
    obtain ⟨begun, h⟩ := h
    exact ⟨begun ++ duties, by rwa [List.append_assoc]⟩

end

theorem Passes.bind {m : Run κ σ α} {f : α → Run κ σ β} (hm : Passes m) (hf : ∀ a, Passes (f a)) :
    Passes (m >>= f) := fun base s =>
  (hm base s).bind fun a s' _ => hf a base s'

theorem passes_of_calm {m : Run κ σ α}
    (hm : ∀ s, match m s with | .ok _ s' => s.Calm s' | .error _ s' => s.Calm s') : Passes m := by
  intro base s
  have hs := hm s
  unfold Works
  cases h : m s with
  | ok a s' =>
    rw [h] at hs
    exact .single (.calm hs)
  | error stop s' =>
    rw [h] at hs
    exact ⟨[], .single (.calm hs)⟩

theorem calm_of_journal {s s' : Session κ σ} (h : s.engine.SameTime s'.engine)
    (hj : s'.journal = s.journal) : s.Calm s' :=
  ⟨h, [], hj, fun _ h => by cases h⟩

theorem calm_refl (s : Session κ σ) : s.Calm s := calm_of_journal (.refl _) rfl

theorem passes_pure (a : α) : Passes (pure a : Run κ σ α) :=
  passes_of_calm calm_refl

theorem passes_get : Passes (get : Run κ σ (Session κ σ)) :=
  passes_of_calm calm_refl

theorem passes_throw (stop : Stop) : Passes (throw stop : Run κ σ α) :=
  passes_of_calm calm_refl

theorem passes_spend : Passes (spend : Run κ σ α) :=
  passes_of_calm fun _ => calm_of_journal (.refl _) rfl

theorem passes_pay : Passes (pay : Run κ σ Unit) :=
  passes_of_calm fun ⟨_, _, _, budget⟩ => by
    cases budget with
    | zero => exact calm_refl _
    | succ budget => exact calm_of_journal (.refl _) rfl

theorem passes_note {n : Notice κ} (hn : n.isOfAgenda = false) :
    Passes (note n : Run κ σ Unit) :=
  passes_of_calm fun s => ⟨.refl _, [n], rfl, by simpa using hn⟩

theorem passes_step {f : Engine κ → σ → α × Engine κ × σ}
    (hf : ∀ (e : Engine κ) s, e.SameTime (f e s).2.1) : Passes (step f) :=
  passes_pay.bind fun _ => passes_of_calm fun s => calm_of_journal (hf s.engine s.host) rfl

theorem passes_makeChange (c : Change κ α) : Passes (makeChange c : Run κ σ α) := by
  refine passes_pay.bind fun _ => (passes_get.bind fun _ => passes_pure _).bind fun e => ?_
  split
  · exact passes_spend
  · split
    · exact passes_throw .overflow
    · intro duties s
      show Passages (duties, s) (duties, { s with
        engine := (c.apply s.engine).2
        journal := c.notices s.engine (c.apply s.engine).2 ++ s.journal })
      have hcalm : c.IsTimeless → s.Calm { s with
          engine := (c.apply s.engine).2
          journal := c.notices s.engine (c.apply s.engine).2 ++ s.journal } := fun hc =>
        ⟨c.sameTime hc s.engine, _, rfl, fun _ => Journal.isOfAgenda_of_mem_notices hc⟩
      cases c with
      | schedule turns task p =>
        rw [Journal.notices_eq_remarks (c := .schedule turns task p) rfl rfl]
        exact .single (.schedule turns task p)
      | scheduleRounds rounds task p =>
        rw [Journal.notices_eq_remarks (c := .scheduleRounds rounds task p) rfl rfl]
        exact .single (.scheduleRounds rounds task p)
      | _ => exact .single (.calm (hcalm trivial))

theorem passes_checkOut (id : TriggerId) : Passes (checkOut id : Run κ σ (Option (Trigger κ))) := by
  refine passes_pay.bind fun _ => passes_of_calm fun s => ?_
  rw [modifyGet_eq]
  cases h : s.engine.shelf.get? id with
  | none =>
    simp only [Shelf.checkOut, h]
    exact calm_refl s
  | some t =>
    simp only [Shelf.checkOut, h]
    exact ⟨⟨rfl, rfl, rfl⟩, [_], rfl, by simp [Notice.isOfAgenda]⟩

theorem passes_checkIn (id : TriggerId) (t : Trigger κ) : Passes (checkIn id t : Run κ σ Unit) :=
  passes_pay.bind fun _ => passes_of_calm fun s =>
    ⟨⟨rfl, rfl, rfl⟩, [_], rfl, by simp [Notice.isOfAgenda]⟩

section
variable (host : Host κ σ) {invoke : Invoke κ σ}

theorem passes_sequencing : Sequencing fun {α} (m : Run κ σ α) => Passes m where
  pure := passes_pure
  bind := Passes.bind
  get := passes_get
  attend hf := passes_step fun e s => by
    obtain ⟨roller, h⟩ := hf e s
    rw [h]
    exact ⟨rfl, rfl, rfl⟩

theorem passes_fire (hr : ∀ r p, Passes (react host invoke r p)) (id : TriggerId) (p : Payload) :
    Passes (fire host invoke id p) := by
  have hnote : ∀ n : Notice κ, n.isOfLink id = true → Passes (note n : Run κ σ Unit) := fun n hn =>
    passes_note (by cases n <;> first | rfl | cases hn)
  refine (passes_checkOut id).bind fun t => ?_
  cases t with
  | none => exact passes_pure _
  | some t =>
    exact (passes_sequencing.respond hnote hr 0 t.head t.rest p).bind fun r =>
      (passes_checkIn id r.1).bind fun _ => passes_pure r.2

theorem passes_handle (hi : ∀ code p, Passes (invoke code p)) (id : HandlerId) (p : Payload) :
    Passes (serve host invoke (.handler id) p) := by
  refine (passes_get.bind fun _ => passes_pure _).bind fun e => ?_
  split
  · exact passes_pure _
  · exact (passes_note rfl).bind fun _ => hi _ p

/-- A collection is worked off task by task. -/
theorem works_all (hd : ∀ d, Passes (doTask host invoke d)) (c : Nat) (base : List (Duty κ)) :
    ∀ (due : List (AgendaEntry (Deferred κ))) (s : Session κ σ),
      Works base [⟨c, due.map (·.item)⟩] [⟨c, []⟩]
        (all (fun entry => runTask host invoke c entry.item) due) s
  | [], _ => .refl
  | entry :: rest, s => by
    have hbegin : Works base [⟨c, entry.item :: rest.map (·.item)⟩] [⟨c, rest.map (·.item)⟩]
        (note (.running c entry.item)) s := .single .begin
    have htask : Works base [⟨c, entry.item :: rest.map (·.item)⟩] [⟨c, rest.map (·.item)⟩]
        (runTask host invoke c entry.item) s :=
      hbegin.bind fun _ s₁ _ => (hd entry.item).works _
    exact htask.bind fun _ s₁ _ => (works_all hd c base rest s₁).bind fun _ s₂ _ =>
      (passes_pure _).works _

theorem works_finish (base : List (Duty κ)) (c : Nat) (a : α) {s : Session κ σ} :
    Works base [⟨c, []⟩] [] (pure a) s := .single .finish

/-- Whatever is collected is worked off. -/
theorem passes_collect (hd : ∀ d, Passes (doTask host invoke d)) (k : Dispatch) :
    Passes (collect host invoke k) := by
  have hcollect : collect host invoke k = pay >>= fun _ =>
      (modifyGet fun s => ((k.gather s.engine).1, { s with engine := (k.gather s.engine).2 })) >>=
        fun due => runDue host invoke k.calendar due.2 due.1 >>= fun outcome =>
          pure (outcome.map fun _ => due.2) := by
    simp only [collect, change, step, bind_assoc]
  rw [hcollect]
  refine passes_pay.bind fun _ base s => ?_
  have hall := works_all host hd (s.journal.countP Notice.isCollected) base
    (k.gather s.engine).1.1 { s with
      engine := (k.gather s.engine).2
      journal := .collected k.calendar (k.gather s.engine).1.2
        ((k.gather s.engine).1.1.map (·.item)) :: s.journal }
  -- nothing can stop the run before the collection is written down
  exact (hall.bind fun _ _ _ => works_finish base _ _).of_passage (.collect k) rfl

theorem passes_takeNext : Passes (takeNext : Run κ σ (Option (Interruption κ))) := by
  refine (passes_step fun e _ => ?_).bind fun first => ?_
  · dsimp only [Engine.dequeue]
    split <;> exact ⟨rfl, rfl, rfl⟩
  · cases first with
    | none => exact passes_pure _
    | some i => exact (passes_note rfl).bind fun _ => passes_pure _

theorem passes_traversal : Traversal .free host Passes where
  toSequencing := passes_sequencing
  throw := passes_throw
  pay := passes_pay
  remark hn := passes_note (by rename_i n; cases n <;> first | rfl | cases hn)
  makeChange _ := passes_makeChange _
  takeNext := passes_takeNext
  strike target dice := passes_step fun e _ => by
    dsimp only [Engine.strike]
    split <;> exact ⟨rfl, rfl, rfl⟩
  pass _ := passes_step fun e _ => by
    dsimp only [TurnOrder.next]
    split <;> exact ⟨rfl, rfl, rfl⟩
  fire := passes_fire host
  handle := passes_handle host
  collect hd k _ := passes_collect host hd k

end

end Run

section
variable {κ σ α : Type} (host : Host κ σ) (p : Program κ σ α) (s : Session κ σ)

/-- Every run is made of passages. -/
theorem Session.reached_passages : ∃ duties, Passages ([], s) (duties, s.reached host p) := by
  have h := (Run.passes_traversal host).program
    ((Run.passes_traversal host).code host.within_free s.budget) p.within_free [] s
  unfold Run.Works at h
  unfold reached run
  split <;> rename_i heq <;> rw [heq] at h
  · exact ⟨[], h⟩
  · obtain ⟨begun, h⟩ := h
    exact ⟨begun ++ [], h⟩

/-- A run that comes to its end leaves no duty. -/
theorem Session.ends_passages (h : s.ends host p = true) :
    Passages ([], s) ([], s.reached host p) := by
  obtain ⟨a, hrun⟩ := ok_of_ends h
  have hp := (Run.passes_traversal host).program
    ((Run.passes_traversal host).code host.within_free s.budget) p.within_free [] s
  unfold Run.Works at hp
  unfold run at hrun
  rw [hrun] at hp
  exact hp

end

end Encounter
