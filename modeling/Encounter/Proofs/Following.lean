import Encounter.Proofs.Traversal

/-!
# Every run makes moves

The judgement `Follows` goes through every run (`follows_traversal`). The one place where a fire
begins and ends is `follows_fire`: what comes between leaves the stack of fires as it found it, so
the fire that ends is the one that began, and `respond_unfired` says that its trigger is the one
that was taken off the shelf.
-/

set_option autoImplicit false

namespace Encounter

namespace Run

variable {κ σ α β : Type} {allowed : Licence κ σ}

/-! ## Answers of a sequence -/

theorem bind_eq_ok {m : Run κ σ α} {f : α → Run κ σ β} {s s'' : Session κ σ} {b : β} :
    (m >>= f) s = .ok b s'' ↔ ∃ a s', m s = .ok a s' ∧ f a s' = .ok b s'' := by
  show EStateM.bind m f s = _ ↔ _
  unfold EStateM.bind
  cases m s with
  | ok a s' => simp
  | error stop s' => simp

theorem bind_of_ok {m : Run κ σ α} {f : α → Run κ σ β} {s s' : Session κ σ} {a : α}
    (h : m s = .ok a s') : (m >>= f) s = f a s' := by
  show EStateM.bind m f s = _
  rw [EStateM.bind, h]

theorem engine_bind {f : Engine κ → Run κ σ α} {s : Session κ σ} :
    (engine >>= f) s = f s.engine s :=
  rfl

theorem bind_eq_error {s s' : Session κ σ} {m : Run κ σ α} {f : α → Run κ σ β} {stop : Stop} :
    (m >>= f) s = .error stop s' ↔
      m s = .error stop s' ∨ ∃ a s₁, m s = .ok a s₁ ∧ f a s₁ = .error stop s' := by
  show EStateM.bind m f s = _ ↔ _
  unfold EStateM.bind
  cases m s with
  | ok a s₁ => simp
  | error stop' s₁ => simp

theorem modifyGet_eq (f : Session κ σ → α × Session κ σ) (s : Session κ σ) :
    (modifyGet f : Run κ σ α) s = .ok (f s).1 (f s).2 := rfl

theorem pure_eq_ok {s s' : Session κ σ} {a b : α} :
    (pure a : Run κ σ α) s = .ok b s' ↔ a = b ∧ s = s' := by
  show EStateM.Result.ok a s = _ ↔ _
  simp

theorem pay_eq_ok {s s' : Session κ σ} : (pay : Run κ σ Unit) s = .ok () s' ↔
    ∃ b, s.budget = b + 1 ∧ s' = { s with budget := b } := by
  obtain ⟨e, state, j, budget⟩ := s
  cases budget with
  | zero => simp [pay]
  | succ budget => simp [pay, eq_comm]

theorem pay_of_spent {s : Session κ σ} (h : s.budget = 0) :
    (pay : Run κ σ Unit) s = .error .spent s := by
  rw [pay, h]

theorem step_eq_ok {f : Engine κ → σ → α × Engine κ × σ} {s s' : Session κ σ} {a : α} :
    step f s = .ok a s' ↔ ∃ b, s.budget = b + 1 ∧ a = (f s.engine s.host).1 ∧
      s' = { s with
        engine := (f s.engine s.host).2.1
        host := (f s.engine s.host).2.2
        budget := b } := by
  rw [step, bind_eq_ok]
  constructor
  · rintro ⟨_, s₁, hpay, h⟩
    obtain ⟨b, hb, rfl⟩ := pay_eq_ok.1 hpay
    cases h
    exact ⟨b, hb, rfl, rfl⟩
  · rintro ⟨b, hb, rfl, rfl⟩
    exact ⟨(), { s with budget := b }, pay_eq_ok.2 ⟨b, hb, rfl⟩, rfl⟩

theorem change_eq_ok {f : Engine κ → α × Engine κ} {s s' : Session κ σ} {a : α} :
    change f s = .ok a s' ↔ ∃ b, s.budget = b + 1 ∧ a = (f s.engine).1 ∧
      s' = { s with engine := (f s.engine).2, budget := b } :=
  step_eq_ok

theorem makeChange_eq_ok {c : Change κ α} {s s' : Session κ σ} {a : α} :
    makeChange c s = .ok a s' ↔ ∃ b, s.budget = b + 1 ∧ c.isEndless s.engine = false ∧
      c.overflows s.engine = false ∧ a = (c.apply s.engine).1 ∧
        s' = { s with
          engine := (c.apply s.engine).2
          journal := c.notices s.engine (c.apply s.engine).2 ++ s.journal
          budget := b } := by
  rw [makeChange, bind_eq_ok]
  constructor
  · rintro ⟨_, s₁, hpay, h⟩
    obtain ⟨b, hb, rfl⟩ := pay_eq_ok.1 hpay
    rw [engine_bind] at h
    split at h
    · cases h
    · rename_i hend
      split at h
      · cases h
      · rename_i hfit
        cases h
        exact ⟨b, hb, Bool.not_eq_true _ ▸ hend, Bool.not_eq_true _ ▸ hfit, rfl, rfl⟩
  · rintro ⟨b, hb, hend, hfit, rfl, rfl⟩
    refine ⟨(), { s with budget := b }, pay_eq_ok.2 ⟨b, hb, rfl⟩, ?_⟩
    rw [engine_bind, if_neg (by simpa using hend), if_neg (by simpa using hfit)]
    rfl

theorem takeNext_of_spent {s : Session κ σ} (h : s.budget = 0) :
    (takeNext : Run κ σ (Option (Interruption κ))) s = .error .spent s := by
  obtain ⟨e, state, j, budget⟩ := s
  cases h
  rfl

theorem takeNext_of_budget {s : Session κ σ} {b : Nat} (h : s.budget = b + 1) :
    (takeNext : Run κ σ (Option (Interruption κ))) s = match s.engine.waiting with
      | [] => .ok none { s with budget := b }
      | i :: waiting => .ok (some i) { s with
          engine := { s.engine with waiting }
          journal := .settling i :: s.journal
          budget := b } := by
  have htaken : (change Engine.dequeue : Run κ σ _) s =
      .ok s.engine.dequeue.1 { s with engine := s.engine.dequeue.2, budget := b } :=
    change_eq_ok.2 ⟨b, h, rfl, rfl⟩
  rw [takeNext, bind_of_ok htaken, Engine.dequeue]
  cases s.engine.waiting <;> rfl

/-! ## Firing -/

section
variable (host : Host κ σ) {invoke : Invoke κ σ}

/-- A chain comes back as it was, unless its first link has reacted and the rest went on. -/
theorem respond_cases {id : TriggerId} {place : Nat} {l : Link κ} {rest : List (Link κ)}
    {p : Payload} {s s' : Session κ σ} {t : Trigger κ} {d : Delivery}
    (h : respond host invoke id place l rest p s = .ok (t, d) s') :
    t = ⟨l, rest⟩ ∨ ∃ turn d₁ s₁,
      follow host invoke id place (l.recordFire turn) rest d₁ s₁ = .ok (t, d) s' := by
  rw [respond_eq] at h
  obtain ⟨e, s₁, -, h⟩ := bind_eq_ok.1 h
  obtain ⟨answer, s₂, -, h⟩ := bind_eq_ok.1 h
  obtain ⟨_, s₃, -, h⟩ := bind_eq_ok.1 h
  cases answer with
  | resting | declined =>
    obtain ⟨ht, -⟩ := pure_eq_ok.1 h
    cases ht
    exact .inl rfl
  | willing =>
    obtain ⟨⟨p', outcome⟩, s₄, -, h⟩ := bind_eq_ok.1 h
    cases outcome with
    | error failure =>
      obtain ⟨ht, -⟩ := pure_eq_ok.1 h
      cases ht
      exact .inl rfl
    | ok =>
      obtain ⟨_, s₅, -, h⟩ := bind_eq_ok.1 h
      exact .inr ⟨_, _, _, h⟩

/-- A link that does not react ends its chain, which comes back as it was. -/
theorem respond_of_unwilling {id : TriggerId} {place : Nat} {l : Link κ} {rest : List (Link κ)}
    {p : Payload} {s s₁ : Session κ σ} {answer : Answer}
    (hask : ask host l (s.engine.turnFor p.world) p s = .ok answer s₁)
    (hanswer : answer ≠ .willing) :
    respond host invoke id place l rest p s = .ok (⟨l, rest⟩, .untouched p) { s₁ with
      journal := .asked id place p (s.engine.turnFor p.world) answer :: s₁.journal } := by
  rw [respond_eq, engine_bind, bind_of_ok hask]
  cases answer with
  | resting | declined => rfl
  | willing => exact absurd rfl hanswer

/-- What becomes of a reaction that has begun: if it fails the chain comes back as it was, and
otherwise the fire is recorded for the turn that was read before it. -/
theorem respond_of_willing {id : TriggerId} {place : Nat} {l : Link κ} {rest : List (Link κ)}
    {p : Payload} {s s₁ s₂ : Session κ σ} {d : Delivery}
    (hask : ask host l (s.engine.turnFor p.world) p s = .ok .willing s₁)
    (hreact : react host invoke l.reaction p { s₁ with
      journal := .asked id place p (s.engine.turnFor p.world) .willing :: s₁.journal } =
        .ok d s₂) :
    respond host invoke id place l rest p s = match d.outcome with
      | .error _ => .ok (⟨l, rest⟩, d) s₂
      | .ok () => follow host invoke id place (l.recordFire (s.engine.turnFor p.world)) rest d
          { s₂ with journal := .reacted id place (s.engine.turnFor p.world) :: s₂.journal } := by
  have hnoted : note (.asked id place p (s.engine.turnFor p.world) .willing) s₁ = .ok () { s₁ with
      journal := .asked id place p (s.engine.turnFor p.world) .willing :: s₁.journal } := rfl
  rw [respond_eq, engine_bind, bind_of_ok hask, bind_of_ok hnoted]
  dsimp only
  rw [bind_of_ok hreact]
  cases d.outcome <;> rfl

/-- A run that stops in a reaction stops there. -/
theorem respond_of_stop {id : TriggerId} {place : Nat} {l : Link κ} {rest : List (Link κ)}
    {p : Payload} {s s₁ s₂ : Session κ σ} {stop : Stop}
    (hask : ask host l (s.engine.turnFor p.world) p s = .ok .willing s₁)
    (hreact : react host invoke l.reaction p { s₁ with
      journal := .asked id place p (s.engine.turnFor p.world) .willing :: s₁.journal } =
        .error stop s₂) :
    respond host invoke id place l rest p s = .error stop s₂ := by
  rw [respond_eq, engine_bind, bind_of_ok hask]
  exact bind_eq_error.2 (.inr ⟨(), _, rfl, bind_eq_error.2 (.inl hreact)⟩)

/-- A chain comes back from a fire as it was, apart from the recorded fires. -/
theorem respond_unfired (id : TriggerId) :
    ∀ (rest : List (Link κ)) (place : Nat) (l : Link κ) (p : Payload) (s s' : Session κ σ)
      (t : Trigger κ) (d : Delivery),
      respond host invoke id place l rest p s = .ok (t, d) s' →
        t.unfired = Trigger.unfired ⟨l, rest⟩ := by
  intro rest
  induction rest with
  | nil =>
    intro place l p s s' t d h
    rcases respond_cases host h with rfl | ⟨turn, d₁, s₁, h⟩
    · rfl
    · obtain ⟨ht, -⟩ := pure_eq_ok.1 h
      cases ht
      rfl
  | cons next rest ih =>
    intro place l p s s' t d h
    rcases respond_cases host h with rfl | ⟨turn, d₁, s₁, h⟩
    · rfl
    · obtain ⟨⟨t', d'⟩, s₂, hrest, h⟩ := bind_eq_ok.1 h
      obtain ⟨ht, -⟩ := pure_eq_ok.1 h
      cases ht
      have ih := ih _ _ _ _ _ _ _ hrest
      simp only [Trigger.unfired, Trigger.mk.injEq, Link.recordFire, Trigger.links,
        List.map_cons, true_and] at ih ⊢
      rw [ih.1, ih.2]

theorem leads_checkOut (id : TriggerId) (s : Session κ σ) :
    Leads allowed (checkOut id) s fun t s' =>
      s'.underway = (t.map (Prod.mk id)).toList ++ s.underway := by
  refine (follows_pay s).bind fun _ s₁ h₁ => ?_
  unfold Leads
  rw [modifyGet_eq]
  cases h : s₁.engine.shelf.get? id with
  | none =>
    simp only [Shelf.checkOut, h]
    exact ⟨.refl, h₁⟩
  | some t =>
    have hm : Move allowed s₁ _ := .checkOut h
    simp only [Shelf.checkOut, h] at hm ⊢
    exact ⟨.single hm, congrArg ((id, t) :: ·) h₁⟩

theorem leads_checkIn {id : TriggerId} {t t' : Trigger κ} {outer : List (TriggerId × Trigger κ)}
    {s : Session κ σ} (h : s.underway = (id, t) :: outer) (ht : t'.unfired = t.unfired) :
    Leads allowed (checkIn id t') s fun _ s' => s'.underway = outer := by
  refine (follows_pay s).bind fun _ s₁ h₁ => ?_
  rw [h] at h₁
  exact ⟨.single (.checkIn h₁ ht), by
    show Journal.underway (.fired id t' :: s₁.journal) = outer
    rw [Journal.underway_fired]
    exact congrArg List.tail h₁⟩

theorem follows_sequencing :
    Sequencing fun {α} (m : Run κ σ α) => Follows allowed m where
  pure := follows_pure
  bind := Follows.bind
  get := follows_get
  attend := follows_attend

theorem follows_respond (hr : ∀ r p, Follows allowed (react host invoke r p)) (id : TriggerId)
    (place : Nat) (l : Link κ) (rest : List (Link κ)) (p : Payload) :
    Follows allowed (respond host invoke id place l rest p) := by
  refine follows_sequencing.respond (fun n hn => ?_) hr place l rest p
  cases n <;> first | exact follows_note rfl rfl | cases hn

/-- A trigger is taken off the shelf as a fire begins, and put back as it ends. -/
theorem follows_fire (hr : ∀ r p, Follows allowed (react host invoke r p)) (id : TriggerId)
    (p : Payload) : Follows allowed (fire host invoke id p) := by
  intro s
  unfold fire
  refine (leads_checkOut id s).bind fun a s₁ h₁ => ?_
  cases a with
  | none => exact leads_pure h₁
  | some t =>
    have h₁ : s₁.underway = (id, t) :: s.underway := h₁
    have hrespond : Leads allowed (respond host invoke id 0 t.head t.rest p) s₁ fun r s' =>
        s'.underway = (id, t) :: s.underway ∧ r.1.unfired = t.unfired :=
      (follows_respond host hr id 0 t.head t.rest p s₁).mono fun r s' hok hs =>
        ⟨hs.trans h₁, respond_unfired host id _ _ _ _ _ _ _ _ hok⟩
    refine hrespond.bind fun r s₂ ⟨h₂, ht⟩ => ?_
    exact (leads_checkIn h₂ ht).bind fun _ s₃ h₃ => leads_pure h₃

/-! ## The other parts -/

theorem follows_handle (hi : ∀ code p, Follows allowed (invoke code p)) (id : HandlerId)
    (p : Payload) : Follows allowed (serve host invoke (.handler id) p) := by
  intro s
  have he : Leads allowed engine s fun e s' => e = s'.engine ∧ s'.underway = s.underway :=
    leads_engine ⟨rfl, rfl⟩
  refine he.bind fun e s₁ ⟨he, h₁⟩ => ?_
  cases hh : e.listeners.handler? id with
  | none => exact leads_pure h₁
  | some code =>
    have hn : Leads allowed (note (.handling id)) s₁ fun _ s' => s'.underway = s.underway :=
      ⟨.single (.handle (he ▸ hh)), (Journal.underway_cons rfl).trans h₁⟩
    exact hn.bind fun _ s₂ h₂ => (hi code p s₂).mono fun _ _ _ h => h.trans h₂

theorem follows_all {act : β → Run κ σ (Except Failure Unit)} (ha : ∀ b, Follows allowed (act b)) :
    ∀ list : List β, Follows allowed (all act list)
  | [] => follows_pure _
  | b :: rest => (ha b).bind fun _ => (follows_all ha rest).bind fun _ => follows_pure _

theorem follows_runTask (hd : ∀ d, Follows allowed (doTask host invoke d)) (collection : Nat)
    (d : Deferred κ) : Follows allowed (runTask host invoke collection d) := by
  rw [runTask_eq]
  exact (follows_note rfl rfl).bind fun _ => hd d

theorem follows_runDue (hd : ∀ d, Follows allowed (doTask host invoke d)) (calendar : Calendar)
    (now : UInt64) (due : List (AgendaEntry (Deferred κ))) :
    Follows allowed (runDue host invoke calendar now due) :=
  follows_get.bind fun _ => (follows_note rfl rfl).bind fun _ =>
    follows_all (fun entry => follows_runTask host hd _ entry.item) due

theorem follows_collect (hd : ∀ d, Follows allowed (doTask host invoke d)) (k : Dispatch)
    (hk : k.Within allowed) : Follows allowed (collect host invoke k) := by
  refine (follows_step fun s => ?_).bind fun _ =>
    (follows_runDue host hd k.calendar _ _).bind fun _ => follows_pure _
  cases k with
  | nextTurn => exact .tick hk
  | startRound => exact .startRound hk
  | endTurn => exact .collect hk

theorem follows_takeNext : Follows allowed (takeNext : Run κ σ (Option (Interruption κ))) := by
  intro s
  unfold Leads
  cases hb : s.budget with
  | zero =>
    rw [takeNext_of_spent hb]
  | succ budget =>
    rw [takeNext_of_budget hb]
    have hpay : Move allowed s { s with budget } := .pay budget
    cases hw : s.engine.waiting with
    | nil => exact ⟨.single hpay, rfl⟩
    | cons i waiting =>
      have htake : Move allowed { s with budget } _ := .settle hw
      exact ⟨.tail (.single hpay) htake, Journal.underway_cons rfl⟩

theorem follows_traversal : Traversal allowed host (Follows allowed) where
  toSequencing := follows_sequencing
  throw := follows_throw
  pay := follows_pay
  remark {n} hn := by
    cases n with
    | emitted | acting => exact follows_note rfl rfl
    | _ => cases hn
  makeChange := follows_makeChange
  takeNext := follows_takeNext
  strike target dice := follows_step fun _ => .strike target dice
  pass h := follows_step fun _ => .pass h
  fire := follows_fire host
  handle := follows_handle host
  collect := follows_collect host

end

end Run

/-! ## Whole runs -/

/-- The session of a new encounter. -/
def Session.opening {κ σ : Type} (world : WorldId) (settings : Settings) (host : σ) (budget : Nat) :
    Session κ σ :=
  { engine := .new world settings, host, budget }

section
variable {κ σ α : Type} {allowed : Licence κ σ} {host : Host κ σ} {p : Program κ σ α}
  {s : Session κ σ}

/-- The session to which a program leads: its end, or where the run stops before that. -/
def Session.reached (host : Host κ σ) (p : Program κ σ α) (s : Session κ σ) : Session κ σ :=
  match s.run host p with
  | .ok _ s' => s'
  | .error _ s' => s'

theorem Session.reached_of_ok {a : α} {s' : Session κ σ} (h : s.run host p = .ok a s') :
    s.reached host p = s' := by
  rw [reached, h]

/-- Does the program come to its end? -/
def Session.ends (host : Host κ σ) (p : Program κ σ α) (s : Session κ σ) : Bool :=
  match s.run host p with
  | .ok _ _ => true
  | .error _ _ => false

theorem Session.ok_of_ends (h : s.ends host p = true) :
    ∃ a, s.run host p = .ok a (s.reached host p) := by
  unfold ends at h
  cases hr : s.run host p with
  | ok a s' => exact ⟨a, by rw [reached_of_ok hr]⟩
  | error stop s' =>
    rw [hr] at h
    cases h

/-- What comes of a run, found by carrying it out. -/
theorem Run.ok_of_check (m : Run κ σ α) (P : α → Session κ σ → Prop)
    [∀ a s', Decidable (P a s')]
    (h : (match m s with | .ok a s' => Decidable.decide (P a s') | .error _ _ => false) = true) :
    ∃ a s', m s = .ok a s' ∧ P a s' := by
  cases hm : m s with
  | ok a s' =>
    rw [hm] at h
    exact ⟨a, s', rfl, of_decide_eq_true h⟩
  | error stop s' =>
    rw [hm] at h
    cases h

/-- Every run makes moves only. -/
theorem Session.reached_moves (hh : host.Within allowed) (hp : p.Within allowed) :
    Moves allowed s (s.reached host p) := by
  have hcode := (Run.follows_traversal host).code hh s.budget
  have h := (Run.follows_traversal host).program hcode hp s
  unfold Run.Leads at h
  unfold reached run
  split <;> rename_i heq <;> rw [heq] at h
  · exact h.1
  · exact h

/-- A run that comes to its end has ended all fires that it began. -/
theorem Session.run_underway {a : α} {s' : Session κ σ} (h : s.run host p = .ok a s')
    (hh : host.Within allowed) (hp : p.Within allowed) : s'.underway = s.underway := by
  have hcode := (Run.follows_traversal host).code hh s.budget
  have hf := (Run.follows_traversal host).program hcode hp s
  unfold Run.Leads at hf
  unfold run at h
  rw [h] at hf
  exact hf.2

end

end Encounter
