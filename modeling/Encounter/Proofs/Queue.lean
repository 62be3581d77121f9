import Encounter.Proofs.Following
import Encounter.Proofs.Registration

/-!
# First in, first out

Interruptions join the end of the line and leave it at its front, and the journal tells of both. So
what was taken out and what still waits make up what was put down (`Session.Queues`), whatever a
run does. Unless some interruption was withdrawn, those that were taken out were settled, in the
order in which they had been put down (`Session.InOrder`).

Working the line off is told by `Run.Settlings`: one interruption after the other is settled,
whatever comes of it, until none waits. Code that an interruption runs may put more of them down, and
may work the line off itself.
-/

set_option autoImplicit false

namespace Encounter

/-! ## What the journal tells of interruptions -/

namespace Notice

variable {κ : Type}

/-- The interruption that was put down. -/
def enqueued? : Notice κ → Option (Interruption κ)
  | .enqueued i => some i
  | _ => none

/-- The interruption that was taken out to be settled. -/
def settled? : Notice κ → Option (Interruption κ)
  | .settling i => some i
  | _ => none

/-- The interruption that was taken out. -/
def taken? : Notice κ → Option (Interruption κ)
  | .settling i => some i
  | .withdrawn i => some i
  | _ => none

def isWithdrawn : Notice κ → Bool
  | .withdrawn _ => true
  | _ => false

end Notice

namespace Journal

variable {κ : Type} {ns j : List (Notice κ)}

/-- The interruptions that were put down, in that order. -/
def enqueued (j : List (Notice κ)) : List (Interruption κ) :=
  (j.filterMap Notice.enqueued?).reverse

/-- The interruptions that were settled, in the order in which that began. -/
def settled (j : List (Notice κ)) : List (Interruption κ) :=
  (j.filterMap Notice.settled?).reverse

/-- The interruptions that were taken out, in that order. -/
def taken (j : List (Notice κ)) : List (Interruption κ) :=
  (j.filterMap Notice.taken?).reverse

theorem enqueued_append : enqueued (ns ++ j) = enqueued j ++ enqueued ns := by
  simp [enqueued]

theorem taken_append : taken (ns ++ j) = taken j ++ taken ns := by
  simp [taken]

theorem mem_enqueued {i : Interruption κ} : i ∈ enqueued j ↔ .enqueued i ∈ j := by
  simp only [enqueued, List.mem_reverse, List.mem_filterMap]
  constructor
  · rintro ⟨n, hn, he⟩
    cases n <;> simp_all [Notice.enqueued?]
  · intro h
    exact ⟨_, h, rfl⟩

theorem enqueued_of_quiet (hn : ∀ n ∈ ns, n.isOfQueue = false) : enqueued ns = [] := by
  simp only [enqueued, List.reverse_eq_nil_iff, List.filterMap_eq_nil_iff]
  intro n h
  have hq := hn n h
  cases n <;> simp_all [Notice.isOfQueue, Notice.enqueued?]

theorem taken_of_quiet (hn : ∀ n ∈ ns, n.isOfQueue = false) : taken ns = [] := by
  simp only [taken, List.reverse_eq_nil_iff, List.filterMap_eq_nil_iff]
  intro n h
  have hq := hn n h
  cases n <;> simp_all [Notice.isOfQueue, Notice.taken?]

/-- Where none was withdrawn, those that were taken out were settled. -/
theorem taken_eq_settled (hn : ∀ n ∈ j, n.isWithdrawn = false) : taken j = settled j := by
  refine congrArg List.reverse (List.filterMap_congr fun n h => ?_)
  have hw := hn n h
  cases n <;> simp_all [Notice.isWithdrawn, Notice.taken?, Notice.settled?]

theorem isOfQueue_of_mem_notices {α : Type} {c : Change κ α} {before after : Engine κ}
    {n : Notice κ} (hc : c.IsSteady) (hn : n ∈ c.notices before after) : n.isOfQueue = false := by
  simp only [Change.notices, List.mem_append, List.mem_map] at hn
  obtain ⟨id, -, rfl⟩ | ⟨id, -, rfl⟩ | hn := hn
  · rfl
  · rfl
  · cases c with
    | schedule | enqueue | dequeue => exact hc.elim
    | editTrigger | removeHandler =>
      rw [Change.remarks] at hn
      split at hn <;> simp_all [Notice.isOfQueue]
    | addHandler | scheduleRounds => simp_all [Change.remarks, Notice.isOfQueue]
    | _ => cases hn

end Journal

open Journal

/-! ## The line -/

namespace Session

variable {κ σ : Type} {allowed : Licence κ σ} {s s₁ s' : Session κ σ}

/-- From one session to the other, what was put down joined the end of the line, and what was taken
out left it at its front. -/
def Queues (s s' : Session κ σ) : Prop :=
  ∃ ns, s'.journal = ns ++ s.journal ∧
    taken ns ++ s'.engine.waiting = s.engine.waiting ++ enqueued ns

theorem Queues.refl (s : Session κ σ) : s.Queues s :=
  ⟨[], rfl, (List.append_nil _).symm⟩

theorem Queues.trans (h : s.Queues s₁) (h' : s₁.Queues s') : s.Queues s' := by
  obtain ⟨ns, hj, hw⟩ := h
  obtain ⟨later, hj', hw'⟩ := h'
  refine ⟨later ++ ns, by rw [hj', hj, List.append_assoc], ?_⟩
  calc taken (later ++ ns) ++ s'.engine.waiting
      = taken ns ++ (taken later ++ s'.engine.waiting) := by
        rw [taken_append, List.append_assoc]
    _ = (taken ns ++ s₁.engine.waiting) ++ enqueued later := by rw [hw', List.append_assoc]
    _ = s.engine.waiting ++ enqueued (later ++ ns) := by
        rw [hw, List.append_assoc, enqueued_append]

theorem Queues.of_quiet (ns : List (Notice κ)) (hw : s'.engine.waiting = s.engine.waiting)
    (hj : s'.journal = ns ++ s.journal) (hn : ∀ n ∈ ns, n.isOfQueue = false) : s.Queues s' :=
  ⟨ns, hj, by rw [taken_of_quiet hn, enqueued_of_quiet hn, hw]; simp⟩

theorem queues_change {α : Type} (c : Change κ α) : s.Queues { s with
    engine := (c.apply s.engine).2
    journal := c.notices s.engine (c.apply s.engine).2 ++ s.journal } := by
  have hsteady : c.IsSteady → s.Queues { s with
      engine := (c.apply s.engine).2
      journal := c.notices s.engine (c.apply s.engine).2 ++ s.journal } := fun hc =>
    .of_quiet _ (c.steady hc s.engine).2 rfl fun _ => isOfQueue_of_mem_notices hc
  cases c with
  | schedule turns task p =>
    rw [notices_eq_remarks (c := .schedule turns task p) rfl rfl]
    exact .of_quiet _ rfl rfl (by simp [Change.remarks, Notice.isOfQueue])
  | enqueue i =>
    rw [notices_eq_remarks (c := .enqueue i) rfl rfl]
    exact ⟨_, rfl, rfl⟩
  | dequeue =>
    have hshelf : ((Change.dequeue (κ := κ)).apply s.engine).2.shelf = s.engine.shelf := by
      simp only [Change.apply, Engine.dequeue]
      split <;> rfl
    rw [notices_eq_remarks rfl hshelf]
    refine ⟨_, rfl, ?_⟩
    simp only [Change.apply, Change.remarks, Engine.dequeue]
    cases h : s.engine.waiting <;> simp [h, taken, enqueued, Notice.taken?, Notice.enqueued?]
  | _ => exact hsteady trivial

theorem queues_move (hm : Move allowed s s') : s.Queues s' := by
  cases hm with
  | note n h hq => exact .of_quiet [n] rfl rfl (by simpa using hq)
  | change c => exact queues_change c
  | checkOut | checkIn | handle =>
    exact .of_quiet [_] rfl rfl (by simp [Notice.isOfQueue])
  | settle h =>
    refine ⟨[_], rfl, ?_⟩
    rw [h]
    simp [taken, enqueued, Notice.taken?, Notice.enqueued?]
  | strike target dice =>
    refine .of_quiet [] ?_ rfl (by simp)
    dsimp only [Engine.strike]
    split <;> rfl
  | _ => exact .of_quiet [] rfl rfl (by simp)

theorem queues_moves (hm : Moves allowed s s') : s.Queues s' :=
  hm.keep (P := fun s' => s.Queues s') (fun _ _ hmove h => h.trans (queues_move hmove)) (.refl s)

/-- What was settled, in the order in which that began, and then what waits, is what was put down, in
the order in which it was. -/
def InOrder (s : Session κ σ) : Prop :=
  settled s.journal ++ s.engine.waiting = enqueued s.journal

theorem InOrder.queues (h : s.InOrder) (hq : s.Queues s')
    (hn : ∀ n ∈ s'.journal, n.isWithdrawn = false) : s'.InOrder := by
  obtain ⟨ns, hj, hw⟩ := hq
  have hold : ∀ n ∈ s.journal, n.isWithdrawn = false := by
    intro n hmem
    exact hn n (by simp [hj, hmem])
  unfold InOrder at h ⊢
  rw [← taken_eq_settled hold] at h
  rw [← taken_eq_settled hn, hj]
  calc taken (ns ++ s.journal) ++ s'.engine.waiting
      = taken s.journal ++ (taken ns ++ s'.engine.waiting) := by
        rw [taken_append, List.append_assoc]
    _ = (taken s.journal ++ s.engine.waiting) ++ enqueued ns := by rw [hw, List.append_assoc]
    _ = enqueued (ns ++ s.journal) := by rw [h, enqueued_append]

end Session

/-! ## Working the line off -/

namespace Run

variable {κ σ : Type} {host : Host κ σ} {invoke : Invoke κ σ} {s s' : Session κ σ}

/-- One interruption after the other is taken out and settled, whatever comes of it, until none
waits. -/
inductive Settlings (host : Host κ σ) (invoke : Invoke κ σ) :
    Session κ σ → List (Interruption κ × Except Failure Unit) → Session κ σ → Prop
  | nil {s : Session κ σ} {b : Nat} (hb : s.budget = b + 1) (h : s.engine.waiting = []) :
      Settlings host invoke s [] { s with budget := b }
  | cons {s s₁ s' : Session κ σ} {b : Nat} {i : Interruption κ} {waiting : List (Interruption κ)}
      {outcome : Except Failure Unit} {done : List (Interruption κ × Except Failure Unit)}
      (hb : s.budget = b + 1) (h : s.engine.waiting = i :: waiting)
      (hi : settleOne host invoke i { s with
        engine := { s.engine with waiting }
        budget := b } = .ok outcome s₁)
      (hrest : Settlings host invoke s₁ done s') :
      Settlings host invoke s ((i, outcome) :: done) s'

theorem Settlings.waiting {done : List (Interruption κ × Except Failure Unit)}
    (h : Settlings host invoke s done s') : s'.engine.waiting = [] := by
  induction h with
  | nil _ h => exact h
  | cons _ _ _ _ ih => exact ih

theorem settleAll_eq_ok {rounds : Nat} {outcomes : List (Except Failure Unit)}
    (h : settleAll host invoke rounds s = .ok outcomes s') :
    ∃ done, Settlings host invoke s done s' ∧ outcomes = done.map Prod.snd := by
  induction rounds generalizing s outcomes with
  | zero => cases h
  | succ rounds ih =>
    unfold settleAll at h
    obtain ⟨first, s₁, hfirst, h⟩ := bind_eq_ok.1 h
    obtain ⟨b, hb, rfl, rfl⟩ := change_eq_ok.1 hfirst
    cases hw : s.engine.waiting with
    | nil =>
      simp only [Engine.dequeue, hw] at h
      obtain ⟨rfl, rfl⟩ := pure_eq_ok.1 h
      exact ⟨[], .nil hb hw, rfl⟩
    | cons i waiting =>
      simp only [Engine.dequeue, hw] at h
      obtain ⟨outcome, s₂, hi, h⟩ := bind_eq_ok.1 h
      obtain ⟨rest, s₃, hrest, h⟩ := bind_eq_ok.1 h
      obtain ⟨rfl, rfl⟩ := pure_eq_ok.1 h
      obtain ⟨done, hdone, rfl⟩ := ih hrest
      exact ⟨(i, outcome) :: done, .cons hb hw hi hdone, rfl⟩

theorem settle_eq_ok {n : Nat} (h : settle host invoke s = .ok n s') :
    ∃ done, Settlings host invoke s done s' ∧ n = done.countP fun d => d.2.isOk := by
  obtain ⟨_, s₁, hget, h⟩ := bind_eq_ok.1 h
  cases hget
  obtain ⟨outcomes, s₂, hall, h⟩ := bind_eq_ok.1 h
  obtain ⟨rfl, rfl⟩ := pure_eq_ok.1 h
  obtain ⟨done, hdone, rfl⟩ := settleAll_eq_ok hall
  exact ⟨done, hdone, by rw [List.countP_map]; rfl⟩

end Run

/-- A host with one piece of code, which does this. Every actor chooses to run it. -/
def Host.doing (task : Program Unit Unit Unit) : Host Unit Unit where
  holds _ _ s := (true, s)
  behaviour _ p := task.andThen fun _ => .done (.untouched p)
  decide _ _ _ s := (some (.custom ()), s)
  objection _ _ := none
  describe _ := "act"
  alerted _ s := s
  play _ s := (.ok (), s)
  silence s := s

namespace Session

/-- In a run that withdraws nothing, interruptions are settled in the order in which they are put
down. When settling them comes to its end none waits, so all that were put down by then were settled;
the number is that of the interruptions settled in its own rounds and with success. -/
theorem first_in_first_out {κ σ : Type} {host : Host κ σ} :
    (∀ (α : Type) (p : Program κ σ α) (world : WorldId) (settings : Settings) (state : σ)
      (budget : Nat),
      (∀ n ∈ ((opening world settings state budget).reached host p).journal,
        n.isWithdrawn = false) →
      ((opening world settings state budget).reached host p).InOrder) ∧
    ∀ (depth n : Nat) (s s' : Session κ σ), s.InOrder →
      Run.settle host (Run.code host depth) s = .ok n s' →
      (∀ m ∈ s'.journal, m.isWithdrawn = false) →
      s'.engine.waiting = [] ∧ settled s'.journal = enqueued s'.journal ∧
        ∃ done, Run.Settlings host (Run.code host depth) s done s' ∧
          n = done.countP fun d => d.2.isOk := by
  constructor
  · intro α p world settings state budget hn
    have hm : Moves .free (opening world settings state budget) _ :=
      reached_moves host.within_free p.within_free
    have hstart : (opening (κ := κ) world settings state budget).InOrder := rfl
    exact hstart.queues (queues_moves hm) hn
  · intro depth n s s' hs h hn
    have hcode := (Run.follows_traversal host).code host.within_free depth
    have hm := ((Run.follows_traversal host).settle hcode).moves h
    have hs' := hs.queues (queues_moves hm) hn
    obtain ⟨done, hdone, hcount⟩ := Run.settle_eq_ok h
    have hnone := hdone.waiting
    rw [InOrder, hnone, List.append_nil] at hs'
    exact ⟨hnone, hs', done, hdone, hcount⟩

/-- Three interruptions are put down. The first and the last one fail, for nobody is there to
react. -/
def disputes : Program Unit Unit Unit :=
  .perform (.change (.enqueue (.contest ⟨1⟩ "first"))) fun _ =>
    .perform (.change (.enqueue (.custom ()))) fun _ =>
      .perform (.change (.enqueue (.contest ⟨1⟩ "last"))) .done

/-- What the second one does: it puts down a fourth, which fails too, and works the line off. -/
def quarrel : Program Unit Unit Unit :=
  .perform (.change (.enqueue (.contest ⟨1⟩ "answer"))) fun _ =>
    .perform .settle fun _ => .done ()

/-- So it is when the second of three works the line off itself. -/
theorem first_in_first_out_disputes : ∃ s s' : Session Unit Unit,
    s = (opening Engine.defaultWorld {} () 100).reached (.doing quarrel) disputes ∧ s.InOrder ∧
      Run.settle (.doing quarrel) (Run.code (.doing quarrel) 2) s = .ok 1 s' ∧
        s'.engine.waiting = [] ∧ enqueued s'.journal =
          [.contest ⟨1⟩ "first", .custom (), .contest ⟨1⟩ "last", .contest ⟨1⟩ "answer"] ∧
            settled s'.journal = enqueued s'.journal := by
  obtain ⟨horder, hsettle⟩ := @first_in_first_out Unit Unit (.doing quarrel)
  obtain ⟨s, hs⟩ : ∃ s : Session Unit Unit, s =
      (opening Engine.defaultWorld {} () 100).reached (.doing quarrel) disputes := ⟨_, rfl⟩
  have hline : s.InOrder := by
    rw [hs]
    exact horder Unit disputes Engine.defaultWorld {} () 100 (by decide +kernel)
  obtain ⟨n, s', h, rfl, hn, hlist⟩ := Run.ok_of_check (s := s)
    (Run.settle (.doing quarrel) (Run.code (.doing quarrel) 2))
    (fun n s' => n = 1 ∧ (∀ m ∈ s'.journal, m.isWithdrawn = false) ∧ enqueued s'.journal =
      [.contest ⟨1⟩ "first", .custom (), .contest ⟨1⟩ "last", .contest ⟨1⟩ "answer"])
    (by rw [hs]; decide +kernel)
  obtain ⟨hnone, hall, -⟩ := hsettle 2 1 s s' hline h hn
  exact ⟨s, s', hs, hline, h, hnone, hlist, hall⟩

end Session

end Encounter
