import Encounter.Proofs.Collecting

/-!
# Tasks are done on time

The clock goes one turn further with each collection by turns. What is due at a turn are the tasks
whose plan says so, in the order in which they were put down (`Journal.Timely`). The agenda holds at
any time the tasks whose plan is still ahead (`Clock.OnTime`), and as long as the clock does not run
over every passage keeps that (`Passage.onTime`).
-/

set_option autoImplicit false

namespace Encounter

/-- A task that was put down: at which turn, for how many turns later, and what. -/
structure Plan (κ : Type) where
  now : UInt64
  delay : UInt64
  task : Deferred κ

namespace Plan

variable {κ : Type}

/-- The turn at which a plan is due; none if it never is. A dispatch of the turn after the current
one is the first that can find it. -/
def turn? (policy : DuePolicy) (p : Plan κ) : Option Nat :=
  match policy with
  | .exactTurn => if p.delay = 0 then none else some (p.now.toNat + p.delay.toNat)
  | .atOrBefore => some (max (p.now.toNat + p.delay.toNat) (p.now.toNat + 1))

/-- Is it still to be decided, after a number of turns, whether the plan is due? -/
def isAhead (turns : Nat) (p : Plan κ) : Bool :=
  p.now.toNat = turns || turns < p.now.toNat + p.delay.toNat

/-- The entry of an agenda. -/
def entry (p : Plan κ) : AgendaEntry (Deferred κ) :=
  ⟨p.now + p.delay, p.task⟩

/-- The turn of the entry is no more than a clock can tell. -/
def Fits (p : Plan κ) : Prop :=
  p.now.toNat + p.delay.toNat < UInt64.size

instance (p : Plan κ) : Decidable p.Fits := by
  unfold Fits
  infer_instance

variable {p : Plan κ} {policy : DuePolicy} {n : Nat} {now : UInt64}

theorem toNat_entry (h : p.Fits) : p.entry.turn.toNat = p.now.toNat + p.delay.toNat := by
  show (p.now + p.delay).toNat = _
  rw [UInt64.toNat_add]
  exact Nat.mod_eq_of_lt h

theorem isDue_iff {turn : UInt64} : policy.isDue turn now = true ↔
    match policy with
    | .exactTurn => turn.toNat = now.toNat
    | .atOrBefore => turn.toNat ≤ now.toNat := by
  cases policy with
  | exactTurn => simp [DuePolicy.isDue, UInt64.toNat_inj]
  | atOrBefore => simp [DuePolicy.isDue, UInt64.le_iff_toNat_le]

theorem turn?_eq_some : p.turn? policy = some n ↔
    match policy with
    | .exactTurn => 0 < p.delay.toNat ∧ p.now.toNat + p.delay.toNat = n
    | .atOrBefore => max (p.now.toNat + p.delay.toNat) (p.now.toNat + 1) = n := by
  have hdelay : p.delay = 0 ↔ p.delay.toNat = 0 := by
    rw [← UInt64.toNat_inj]
    rfl
  cases policy with
  | exactTurn =>
    simp only [turn?, hdelay]
    split
    · simp
      omega
    · simp
      omega
  | atOrBefore => simp [turn?]

/-- No plan is for the turn at which it is made. -/
theorem now_lt_of_turn? (h : p.turn? policy = some n) : p.now.toNat < n := by
  rw [turn?_eq_some] at h
  cases policy with
  | exactTurn =>
    simp only at h
    omega
  | atOrBefore =>
    simp only at h
    omega

/-- The dispatch of the next turn finds a plan that is ahead if and only if that is its turn. -/
theorem isDue_entry_iff (hfit : p.Fits) (hp : p.now.toNat ≤ n) (hnow : now.toNat = n + 1) :
    (p.isAhead n && policy.isDue p.entry.turn now) = true ↔ p.turn? policy = some (n + 1) := by
  rw [Bool.and_eq_true, isDue_iff, toNat_entry hfit, hnow, turn?_eq_some]
  cases policy with
  | exactTurn =>
    simp only [isAhead, Bool.or_eq_true, decide_eq_true_eq]
    omega
  | atOrBefore =>
    simp only [isAhead, Bool.or_eq_true, decide_eq_true_eq]
    omega

/-- Of the plans that are ahead those stay that are ahead after the next turn too. -/
theorem isPending_entry_iff (hfit : p.Fits) (hp : p.now.toNat ≤ n) (hnow : now.toNat = n + 1) :
    (p.isAhead n && (!policy.isDue p.entry.turn now && now ≤ p.entry.turn)) = true ↔
      p.isAhead (n + 1) = true := by
  have hle : now ≤ p.entry.turn ↔ n + 1 ≤ p.now.toNat + p.delay.toNat := by
    rw [UInt64.le_iff_toNat_le, toNat_entry hfit, hnow]
  rw [Bool.and_eq_true, Bool.and_eq_true, Bool.not_eq_true', ← Bool.not_eq_true, isDue_iff,
    decide_eq_true_eq, hle, toNat_entry hfit, hnow]
  cases policy with
  | exactTurn =>
    simp only [isAhead, Bool.or_eq_true, decide_eq_true_eq]
    omega
  | atOrBefore =>
    simp only [isAhead, Bool.or_eq_true, decide_eq_true_eq]
    omega

end Plan

namespace Journal

variable {κ : Type}

/-- Does the notice tell that a turn was gone to? -/
def isTurn : Notice κ → Bool
  | .collected .turns _ _ => true
  | _ => false

/-- The number of turns that were gone to. -/
def turns (j : List (Notice κ)) : Nat :=
  j.countP isTurn

/-- The plan that the notice tells of. -/
def plan? : Notice κ → Option (Plan κ)
  | .scheduled .turns now delay task => some ⟨now, delay, task⟩
  | _ => none

/-- The plans by turns, in the order in which they were made. -/
def plans (j : List (Notice κ)) : List (Plan κ) :=
  (j.filterMap plan?).reverse

/-- The clock did not run over, and no plan is for a turn that it cannot tell. -/
def InRange (j : List (Notice κ)) : Prop :=
  turns j < UInt64.size ∧ ∀ p ∈ plans j, p.Fits

instance (j : List (Notice κ)) : Decidable (InRange j) := by
  unfold InRange
  infer_instance

/-- The tasks that were put down for a turn, in the order in which they were put down. -/
def dueAt (policy : DuePolicy) (j : List (Notice κ)) (turn : Nat) : List (Deferred κ) :=
  ((plans j).filter fun p => p.turn? policy = some turn).map (·.task)

/-- Plans are made at the current turn; the clock goes one turn further at a time, and collects what
is due at that turn. -/
structure Timely (policy : DuePolicy) (j : List (Notice κ)) : Prop where
  scheduled : ∀ later now delay task earlier,
    j = later ++ .scheduled .turns now delay task :: earlier → now.toNat = turns earlier
  collected : ∀ later now due earlier, j = later ++ .collected .turns now due :: earlier →
    now.toNat = turns earlier + 1 ∧ due = dueAt policy earlier now.toNat

variable {policy : DuePolicy} {j ns : List (Notice κ)} {n : Notice κ}

theorem turns_cons : turns (n :: j) = turns j + if isTurn n then 1 else 0 :=
  List.countP_cons

theorem plans_cons : plans (n :: j) = plans j ++ (plan? n).toList := by
  unfold plans
  cases h : plan? n <;> simp [h]

theorem turns_le_append (later earlier : List (Notice κ)) :
    turns earlier ≤ turns (later ++ earlier) := by
  rw [turns, turns, List.countP_append]
  omega

theorem mem_plans_append {p : Plan κ} {later earlier : List (Notice κ)} (h : p ∈ plans earlier) :
    p ∈ plans (later ++ earlier) := by
  rw [plans, List.filterMap_append, List.reverse_append]
  exact List.mem_append_left _ h

theorem InRange.of_append {later earlier : List (Notice κ)} (h : InRange (later ++ earlier)) :
    InRange earlier :=
  ⟨Nat.lt_of_le_of_lt (turns_le_append later earlier) h.1, fun p hp =>
    h.2 p (mem_plans_append hp)⟩

/-- A notice that tells neither of a plan nor of a turn. -/
def IsOther (n : Notice κ) : Prop :=
  isTurn n = false ∧ plan? n = none

theorem turns_cons_other (hn : IsOther n) : turns (n :: j) = turns j := by
  rw [turns_cons, hn.1]
  rfl

theorem plans_cons_other (hn : IsOther n) : plans (n :: j) = plans j := by
  rw [plans_cons, hn.2]
  exact List.append_nil _

theorem Timely.cons_other (h : Timely policy j) (hn : IsOther n) : Timely policy (n :: j) where
  scheduled later now delay task earlier hj := by
    obtain ⟨-, hnew⟩ | ⟨later, rfl, hold⟩ := List.cons_eq_append_iff.1 hj
    · cases hnew
      cases hn.2
    · exact h.scheduled later now delay task earlier hold
  collected later now due earlier hj := by
    obtain ⟨-, hnew⟩ | ⟨later, rfl, hold⟩ := List.cons_eq_append_iff.1 hj
    · cases hnew
      cases hn.1
    · exact h.collected later now due earlier hold

/-- What is due at a turn that was gone to does not change any more. -/
theorem Timely.dueAt_append {later earlier : List (Notice κ)} {turn : Nat}
    (h : Timely policy (later ++ earlier)) (hturn : turn ≤ turns earlier) :
    dueAt policy (later ++ earlier) turn = dueAt policy earlier turn := by
  induction later with
  | nil => rfl
  | cons n later ih =>
    have hrest : Timely policy (later ++ earlier) :=
      ⟨fun l now delay task e hj => h.scheduled (n :: l) now delay task e (congrArg (n :: ·) hj),
        fun l now due e hj => h.collected (n :: l) now due e (congrArg (n :: ·) hj)⟩
    rw [← ih hrest, List.cons_append, dueAt, plans_cons, List.filter_append, List.map_append]
    have hnone : (plan? n).toList.filter (fun p => p.turn? policy = some turn) = [] := by
      rw [List.filter_eq_nil_iff]
      intro p hp
      rw [Option.mem_toList] at hp
      -- it was made at the turn that had come by then, and no plan is for that turn or before it
      have hnow : p.now.toNat = turns (later ++ earlier) := by
        cases n with
        | scheduled calendar now delay task =>
          cases calendar with
          | turns =>
            cases hp
            exact h.scheduled [] now delay task _ rfl
          | rounds => cases hp
        | _ => cases hp
      have hle := turns_le_append later earlier
      have hlt : ¬ p.turn? policy = some turn := fun h => by
        have := Plan.now_lt_of_turn? h
        omega
      simpa using hlt
    rw [hnone, List.map_nil, List.append_nil, dueAt]

/-- Each turn collected all that was ever put down for it. -/
theorem Timely.due_eq (h : Timely policy j) (later : List (Notice κ)) (now : UInt64)
    (due : List (Deferred κ)) (earlier : List (Notice κ))
    (hj : j = later ++ .collected .turns now due :: earlier) : due = dueAt policy j now.toNat := by
  obtain ⟨hnow, hdue⟩ := h.collected later now due earlier hj
  have hle : now.toNat ≤ turns (.collected .turns now due :: earlier) := by
    rw [turns_cons, hnow]
    exact Nat.le_refl _
  subst hj
  rw [h.dueAt_append hle]
  refine hdue.trans ?_
  rw [dueAt, dueAt, plans_cons]
  exact congrArg _ (congrArg _ (List.append_nil _).symm)

end Journal

open Journal (turns plans dueAt Timely InRange IsOther)

/-! ## The clock -/

/-- A clock that is on time with a journal: it tells how many turns were gone to, and its agenda
holds the plans that are ahead. -/
structure Clock.OnTime {κ : Type} (policy : DuePolicy) (c : Clock (Deferred κ))
    (j : List (Notice κ)) : Prop where
  turn : c.turn.toNat = turns j
  policy_eq : c.agenda.policy = policy
  entries : c.agenda.entries = ((plans j).filter (·.isAhead (turns j))).map (·.entry)
  past : ∀ p ∈ plans j, p.now.toNat ≤ turns j
  timely : Timely policy j

namespace Clock.OnTime

variable {κ σ : Type} {policy : DuePolicy} {c : Clock (Deferred κ)} {j ns : List (Notice κ)}
  {n : Notice κ}

theorem new (policy : DuePolicy) : (Clock.new policy).OnTime (κ := κ) policy [] where
  turn := rfl
  policy_eq := rfl
  entries := rfl
  past _ h := by cases h
  timely := ⟨fun later _ _ _ _ h => (by cases later <;> cases h),
    fun later _ _ _ h => (by cases later <;> cases h)⟩

theorem cons_other (h : c.OnTime policy j) (hn : IsOther n) : c.OnTime policy (n :: j) where
  turn := by rw [Journal.turns_cons_other hn, h.turn]
  policy_eq := h.policy_eq
  entries := by rw [Journal.turns_cons_other hn, Journal.plans_cons_other hn, h.entries]
  past := by
    rw [Journal.turns_cons_other hn, Journal.plans_cons_other hn]
    exact h.past
  timely := h.timely.cons_other hn

theorem append_other (h : c.OnTime policy j) (hn : ∀ n ∈ ns, IsOther n) :
    c.OnTime policy (ns ++ j) := by
  induction ns with
  | nil => exact h
  | cons n ns ih =>
    exact (ih fun m hm => hn m (List.mem_cons_of_mem _ hm)).cons_other (hn n List.mem_cons_self)

theorem schedule (h : c.OnTime policy j) (delay : UInt64) (d : Deferred κ) :
    (c.schedule delay d).OnTime policy (.scheduled .turns c.turn delay d :: j) := by
  have hturns : turns (.scheduled .turns c.turn delay d :: j) = turns j := Journal.turns_cons
  have hplans : plans (.scheduled .turns c.turn delay d :: j) = plans j ++ [⟨c.turn, delay, d⟩] :=
    Journal.plans_cons
  refine ⟨hturns ▸ h.turn, h.policy_eq, ?_, fun p hp => ?_,
    fun later now delay' task earlier hj => ?_, fun later now due earlier hj => ?_⟩
  · have hahead : (⟨c.turn, delay, d⟩ : Plan κ).isAhead (turns j) = true := by
      simp [Plan.isAhead, h.turn]
    rw [hturns, hplans, List.filter_append, List.filter_singleton, hahead, List.map_append,
      ← h.entries]
    rfl
  · rw [hplans] at hp
    rw [hturns]
    obtain hp | hp := List.mem_append.1 hp
    · exact h.past p hp
    · obtain rfl := List.mem_singleton.1 hp
      exact Nat.le_of_eq h.turn
  · obtain ⟨-, hnew⟩ | ⟨later, rfl, hold⟩ := List.cons_eq_append_iff.1 hj
    · cases hnew
      exact h.turn
    · exact h.timely.scheduled later now delay' task earlier hold
  · obtain ⟨-, hnew⟩ | ⟨later, rfl, hold⟩ := List.cons_eq_append_iff.1 hj
    · cases hnew
    · exact h.timely.collected later now due earlier hold

/-- The next turn finds what is due at it, and leaves what is ahead after it. -/
theorem advance (h : c.OnTime policy j)
    (hfit : InRange (.collected .turns c.advance.2.turn (c.advance.1.map (·.item)) :: j)) :
    c.advance.1.map (·.item) = dueAt policy j (turns j + 1) ∧
      c.advance.2.OnTime policy
        (.collected .turns c.advance.2.turn (c.advance.1.map (·.item)) :: j) := by
  have hturns : turns (.collected .turns c.advance.2.turn (c.advance.1.map (·.item)) :: j) =
      turns j + 1 := Journal.turns_cons
  have hplans : plans (.collected .turns c.advance.2.turn (c.advance.1.map (·.item)) :: j) =
      plans j := (Journal.plans_cons).trans (List.append_nil _)
  obtain ⟨hrange, hplansfit⟩ := hfit
  rw [hturns] at hrange
  rw [hplans] at hplansfit
  -- the clock does not run over, so its turns can be counted
  have hnow : (c.turn + 1).toNat = turns j + 1 := by
    rw [UInt64.toNat_add, h.turn]
    exact Nat.mod_eq_of_lt hrange
  have hdue : c.advance.1.map (·.item) = dueAt policy j (turns j + 1) := by
    have hfilter : ∀ p ∈ plans j,
        ((c.agenda.isDue (c.turn + 1) ∘ Plan.entry) p && p.isAhead (turns j)) =
          decide (p.turn? policy = some (turns j + 1)) := by
      intro p hp
      rw [Bool.eq_iff_iff, Bool.and_comm, decide_eq_true_eq,
        ← Plan.isDue_entry_iff (hplansfit p hp) (h.past p hp) hnow, ← h.policy_eq]
      rfl
    show (c.agenda.entries.filter (c.agenda.isDue (c.turn + 1))).map (·.item) = _
    rw [h.entries, List.filter_map, List.map_map, List.filter_filter, List.filter_congr hfilter]
    rfl
  have hentries : c.advance.2.agenda.entries =
      ((plans j).filter (·.isAhead (turns j + 1))).map (·.entry) := by
    have hfilter : ∀ p ∈ plans j,
        ((c.agenda.isPending (c.turn + 1) ∘ Plan.entry) p && p.isAhead (turns j)) =
          p.isAhead (turns j + 1) := by
      intro p hp
      rw [Bool.eq_iff_iff, Bool.and_comm,
        ← Plan.isPending_entry_iff (hplansfit p hp) (h.past p hp) hnow]
      rfl
    show c.agenda.entries.filter (c.agenda.isPending (c.turn + 1)) = _
    rw [h.entries, List.filter_map, List.filter_filter, List.filter_congr hfilter]
  refine ⟨hdue, hturns ▸ hnow, h.policy_eq, by rw [hturns, hplans, hentries], fun p hp => ?_,
    fun later now delay task earlier hj => ?_, fun later now due earlier hj => ?_⟩
  · rw [hplans] at hp
    rw [hturns]
    exact Nat.le_succ_of_le (h.past p hp)
  · obtain ⟨-, hnew⟩ | ⟨later, rfl, hold⟩ := List.cons_eq_append_iff.1 hj
    · cases hnew
    · exact h.timely.scheduled later now delay task earlier hold
  · obtain ⟨-, hnew⟩ | ⟨later, rfl, hold⟩ := List.cons_eq_append_iff.1 hj
    · cases hnew
      exact ⟨hnow, hnow.symm ▸ hdue⟩
    · exact h.timely.collected later now due earlier hold

end Clock.OnTime

/-! ## Runs -/

section
variable {κ σ : Type} {policy : DuePolicy}

/-- Every passage keeps the clock on time. -/
theorem Passage.onTime {m m' : List (Duty κ) × Session κ σ} (hp : Passage m m')
    (hfit : InRange m'.2.journal) (h : m.2.engine.clock.OnTime policy m.2.journal) :
    m'.2.engine.clock.OnTime policy m'.2.journal := by
  cases hp with
  | calm hcalm =>
    obtain ⟨ns, hj, hn⟩ := hcalm.journal
    rw [hj, hcalm.time.clock]
    refine h.append_other fun n hm => ?_
    have hagenda := hn n hm
    cases n with
    | scheduled | collected | running => cases hagenda
    | _ => exact ⟨rfl, rfl⟩
  | schedule turns task p => exact h.schedule turns ⟨task, p⟩
  | scheduleRounds => exact h.cons_other ⟨rfl, rfl⟩
  | collect k =>
    cases k with
    | nextTurn => exact (h.advance hfit).2
    | startRound | endTurn => exact h.cons_other ⟨rfl, rfl⟩
  | begin => exact h.cons_other ⟨rfl, rfl⟩
  | finish => exact h

theorem Passages.onTime {m m' : List (Duty κ) × Session κ σ} (hp : Passages m m')
    (hfit : InRange m'.2.journal) (h : m.2.engine.clock.OnTime policy m.2.journal) :
    m'.2.engine.clock.OnTime policy m'.2.journal := by
  induction hp with
  | refl => exact h
  | tail _ hp ih =>
    obtain ⟨ns, hj⟩ := hp.journal
    exact hp.onTime hfit (ih (hj ▸ hfit).of_append)

end

/-! ## Whole runs -/

open Journal (collections begun)

namespace Session

section
variable {κ σ : Type} {host : Host κ σ} {policy : DuePolicy} {duties : List (Duty κ)}
  {s s' : Session κ σ}

/-- Going to the next turn does what is due there. -/
theorem next_turn_does_due {depth : Nat} {answer : Except Failure UInt64}
    (hledger : Ledger duties s.journal) (htime : s.engine.clock.OnTime policy s.journal)
    (h : Run.nextTurn host (Run.code host depth) s = .ok answer s') (hfit : InRange s'.journal) :
    begun s'.journal (collections s.journal) = dueAt policy s.journal (turns s.journal + 1) ∧
    ∃ b outcomes, s.budget = b + 1 ∧
      (dueAt policy s.journal (turns s.journal + 1)).mapM
        (Run.runTask host (Run.code host depth) (collections s.journal)) { s with
          engine := { s.engine with clock := s.engine.clock.advance.2 }
          journal := .collected .turns (s.engine.clock.turn + 1)
            (dueAt policy s.journal (turns s.journal + 1)) :: s.journal
          budget := b } = .ok outcomes s' ∧
      answer = (Run.firstOf outcomes).map fun _ => s.engine.clock.turn + 1 := by
  rw [Run.nextTurn_eq] at h
  obtain ⟨later, hj⟩ := (collect_does_all hledger rfl rfl h).2.1
  have hdue := (htime.advance (hj ▸ hfit).of_append).1
  obtain ⟨hbegun, -, hdone⟩ := collect_does_all (k := .nextTurn) hledger hdue rfl h
  exact ⟨hbegun, hdone⟩

end

end Session

/-- A host with one piece of code, which goes to the next turn. -/
def Host.hurrying : Host Unit Unit where
  holds _ _ s := (true, s)
  behaviour _ p := .perform .nextTurn fun _ => .done (.untouched p)
  decide _ _ _ s := (none, s)
  objection _ _ := none
  describe _ := "hurry"
  alerted _ s := s
  play _ s := (.ok (), s)
  silence s := s

/-- Code that goes to the next turn is put down for the first turn, and events for the second and
the third. -/
def Session.vigil : Program Unit Unit (Except Failure UInt64) :=
  .perform (.change (.schedule 1 (.run ()) {})) fun _ =>
    .perform (.change (.schedule 2 (.emit "dawn") {})) fun _ =>
      .perform (.change (.schedule 3 (.emit "noon") {})) fun _ => .perform .nextTurn .done

namespace Session

/-- What is true of the tasks in a session `s` that a run of `p` came to from `start`. -/
structure Punctual {κ σ α : Type} (start : Session κ σ) (host : Host κ σ) (p : Program κ σ α)
    (policy : DuePolicy) (s : Session κ σ) : Prop where
  /-- The clock tells how many turns were gone to. -/
  turn : s.engine.clock.turn.toNat = turns s.journal
  timely : Timely policy s.journal
  /-- Each turn collected what was due at it, in the order in which that was put down. -/
  due : ∀ later now due earlier, s.journal = later ++ .collected .turns now due :: earlier →
    due = dueAt policy s.journal now.toNat
  /-- A collection was begun after it was made, -/
  fresh : ∀ later calendar now due earlier,
    s.journal = later ++ .collected calendar now due :: earlier →
      begun earlier (collections earlier) = []
  /-- a first part of it, -/
  started : ∀ later calendar now due earlier,
    s.journal = later ++ .collected calendar now due :: earlier →
      begun s.journal (collections earlier) <+: due
  /-- and all of it if the run came to its end. -/
  complete : start.ends host p = true → ∀ later calendar now due earlier,
    s.journal = later ++ .collected calendar now due :: earlier →
      begun s.journal (collections earlier) = due
  /-- Nothing else was begun. -/
  collected : ∀ c d, .running c d ∈ s.journal → ∃ later calendar now due earlier,
    s.journal = later ++ .collected calendar now due :: earlier ∧ c = collections earlier
  /-- Whenever the clock goes to the next turn, all that is due there is done in order, whatever
  fails, and the answer is the first failure or the new turn. -/
  next : ∀ depth b answer s', Run.nextTurn host (Run.code host depth) { s with budget := b + 1 } =
      .ok answer s' → InRange s'.journal →
    begun s'.journal (collections s.journal) = dueAt policy s.journal (turns s.journal + 1) ∧
    ∃ outcomes, (dueAt policy s.journal (turns s.journal + 1)).mapM
        (Run.runTask host (Run.code host depth) (collections s.journal)) { s with
          engine := { s.engine with clock := s.engine.clock.advance.2 }
          journal := .collected .turns (s.engine.clock.turn + 1)
            (dueAt policy s.journal (turns s.journal + 1)) :: s.journal
          budget := b } = .ok outcomes s' ∧
      answer = (Run.firstOf outcomes).map fun _ => s.engine.clock.turn + 1

/-- Tasks are done on time, at any moment of any run. -/
theorem tasks_on_time {κ σ α : Type} {host : Host κ σ} {p : Program κ σ α} {world : WorldId}
    {settings : Settings} {state : σ} {budget : Nat} {s : Session κ σ}
    (hs : (opening world settings state budget).reached host p = s) (hfit : InRange s.journal) :
    (opening world settings state budget).Punctual host p settings.turnPolicy s := by
  subst hs
  obtain ⟨duties, hpass⟩ := reached_passages host p (opening world settings state budget)
  have htime := hpass.onTime hfit (Clock.OnTime.new settings.turnPolicy)
  have hledger := Ledger.passages hpass .nil
  obtain ⟨hbegun, hknown⟩ :=
    begun_of_collected host p (s := opening world settings state budget) rfl
  exact {
    turn := htime.turn
    timely := htime.timely
    due := htime.timely.due_eq
    fresh := fun later calendar now due earlier hj => (hbegun later calendar now due earlier hj).1
    started := fun later calendar now due earlier hj =>
      (hbegun later calendar now due earlier hj).2.1
    complete := fun hends later calendar now due earlier hj =>
      (hbegun later calendar now due earlier hj).2.2 hends
    collected := hknown
    next := fun depth b answer s' h hfit' => by
      obtain ⟨hdone, b', outcomes, hb, hmap, hanswer⟩ := next_turn_does_due (s := { reached host p
        (opening world settings state budget) with budget := b + 1 }) hledger htime h hfit'
      cases hb
      exact ⟨hdone, outcomes, hmap, hanswer⟩ }

/-- So it is when the code that is put down for the first turn goes to the second one at once. -/
theorem tasks_on_time_vigil : ∃ s, (opening Engine.defaultWorld {} () 100).reached .hurrying
      vigil = s ∧ InRange s.journal ∧ s.engine.clock.turn.toNat = 2 ∧
    Timely .exactTurn s.journal ∧
    (∀ later calendar now due earlier, s.journal = later ++ .collected calendar now due :: earlier →
      begun s.journal (collections earlier) = due) ∧
    ∃ answer s', Run.nextTurn .hurrying (Run.code .hurrying 1) { s with budget := 10 } =
        .ok answer s' ∧ InRange s'.journal ∧
      begun s'.journal (collections s.journal) = dueAt .exactTurn s.journal 3 := by
  have hfit :
      InRange ((opening Engine.defaultWorld {} () 100).reached .hurrying vigil).journal := by
    decide +kernel
  have hends : (opening Engine.defaultWorld {} () 100).ends .hurrying vigil = true := by
    decide +kernel
  have hturns : turns ((opening Engine.defaultWorld {} () 100).reached .hurrying
      vigil).journal = 2 := by decide +kernel
  have hpunctual := tasks_on_time rfl hfit
  have hnext := hpunctual.next
  refine ⟨_, rfl, hfit, hpunctual.turn.trans hturns, hpunctual.timely,
    fun later calendar now due earlier hj =>
      hpunctual.complete hends later calendar now due earlier hj, ?_⟩
  rw [hturns] at hnext
  have hrun : (match Run.nextTurn .hurrying (Run.code .hurrying 1)
      { (opening Engine.defaultWorld {} () 100).reached .hurrying vigil with budget := 10 } with
    | .ok _ s' => decide (InRange s'.journal)
    | .error _ _ => false) = true := by decide +kernel
  split at hrun
  · rename_i answer s' h
    have hfit' := of_decide_eq_true hrun
    exact ⟨answer, s', h, hfit', (hnext 1 9 answer s' h hfit').1⟩
  · cases hrun

end Session

end Encounter
