import Encounter.Proofs.Collecting
import Encounter.Proofs.Protocol

/-!
# Tasks for later rounds are never lost

Two things dispatch what was put down for a round: a round that starts, and a turn that ends. A task
is caught by the first dispatch after it was put down that is held in its round or past it
(`RoundPlan.takenBy?`). Until then it stands on the agenda, since what is not due in a round is due
later, so that nothing is ever dropped (`TurnOrder.CatchesUp.takeDue`). Every passage keeps that
(`Passage.catchesUp`), and what was collected is done as the ledger tells.
-/

set_option autoImplicit false

namespace Encounter

open Journal (collections begun)

/-! ## Plans -/

/-- A task that was put down: after how many dispatches by rounds, in which round, for how many
rounds later, and what. -/
structure RoundPlan (κ : Type) where
  past : Nat
  now : UInt64
  delay : UInt64
  task : Deferred κ

namespace RoundPlan

variable {κ : Type} {p : RoundPlan κ} {rounds : List UInt64} {now : UInt64} {i : Nat}

/-- The round of a plan. The rounds of a turn order come to a stop at the last one that can be told,
and so do plans. -/
def round (p : RoundPlan κ) : Nat :=
  min (p.now.toNat + p.delay.toNat) (UInt64.size - 1)

/-- Is the plan due in a round? -/
def isDue (p : RoundPlan κ) (now : UInt64) : Bool :=
  p.round ≤ now.toNat

/-- Of the dispatches in these rounds, the first since the plan was made in which it is due. -/
def takenBy? (rounds : List UInt64) (p : RoundPlan κ) : Option Nat :=
  ((rounds.drop p.past).findIdx? p.isDue).map (p.past + ·)

/-- The entry of an agenda. -/
def entry (p : RoundPlan κ) : AgendaEntry (Deferred κ) :=
  ⟨saturateU64 (p.now.toNat + p.delay.toNat), p.task⟩

theorem isDue_entry {a : Agenda (Deferred κ)} (ha : a.policy = .atOrBefore) :
    a.isDue now p.entry = p.isDue now := by
  have hturn : p.entry.turn.toNat = p.round := toNat_saturateU64 _
  rw [Agenda.isDue, ha, isDue, ← hturn]
  exact decide_eq_decide.2 UInt64.le_iff_toNat_le

/-- What is not due in a round is due later, so it stays. -/
theorem isPending_entry {a : Agenda (Deferred κ)} (ha : a.policy = .atOrBefore) :
    a.isPending now p.entry = !p.isDue now := by
  have hle : a.isDue now p.entry = false → now ≤ p.entry.turn := by
    rw [Agenda.isDue, ha, DuePolicy.isDue, decide_eq_false_iff_not, UInt64.not_le]
    exact UInt64.le_of_lt
  rw [Agenda.isPending, ← isDue_entry ha]
  cases hdue : a.isDue now p.entry with
  | true => rfl
  | false => simp [hle hdue]

/-- What takes a plan is a dispatch since it was made, in which it is due as in none between. -/
theorem takenBy?_eq_some : p.takenBy? rounds = some i ↔ p.past ≤ i ∧ ∃ h : i < rounds.length,
    p.isDue rounds[i] = true ∧ ∀ j (hj : j < i), p.past ≤ j → ¬ p.isDue rounds[j] = true := by
  rw [takenBy?, Option.map_eq_some_iff]
  simp only [List.findIdx?_eq_some_iff_getElem, List.getElem_drop, List.length_drop]
  constructor
  · rintro ⟨k, ⟨hk, hdue, hfirst⟩, rfl⟩
    refine ⟨Nat.le_add_right _ _, by omega, hdue, fun j hj hpast hj' => ?_⟩
    refine hfirst (j - p.past) (by omega) ?_
    simpa only [Nat.add_sub_cancel' hpast] using hj'
  · rintro ⟨hpast, hi, hdue, hfirst⟩
    refine ⟨i - p.past, ⟨by omega, ?_, fun j hj => ?_⟩, by omega⟩
    · simpa only [Nat.add_sub_cancel' hpast] using hdue
    · exact hfirst (p.past + j) (by omega) (Nat.le_add_right _ _)

theorem lt_of_takenBy? (h : p.takenBy? rounds = some i) : p.past ≤ i ∧ i < rounds.length := by
  obtain ⟨hpast, hi, -⟩ := takenBy?_eq_some.1 h
  exact ⟨hpast, hi⟩

theorem takenBy?_eq_none (h : rounds.length ≤ p.past) : p.takenBy? rounds = none := by
  rw [takenBy?, List.drop_eq_nil_of_le h]
  rfl

/-- A dispatch takes the plans that are due in it and that none before it has taken. -/
theorem takenBy?_append (h : p.past ≤ rounds.length) : p.takenBy? (rounds ++ [now]) =
    (p.takenBy? rounds).or (if p.isDue now then some rounds.length else none) := by
  rw [takenBy?, List.drop_append_of_le_length h, List.findIdx?_append, takenBy?]
  cases (rounds.drop p.past).findIdx? p.isDue with
  | some i => rfl
  | none =>
    cases hdue : p.isDue now with
    | false => simp [hdue]
    | true =>
      simp [hdue]
      omega

end RoundPlan

namespace Journal

variable {κ : Type}

/-- The round of the dispatch that the notice tells of. -/
def dispatch? : Notice κ → Option UInt64
  | .collected .rounds now _ => some now
  | _ => none

/-- The rounds in which there was a dispatch, in the order of the dispatches. -/
def dispatches (j : List (Notice κ)) : List UInt64 :=
  (j.filterMap dispatch?).reverse

/-- The current round: that of the last dispatch, or else the first. -/
def round (j : List (Notice κ)) : UInt64 :=
  (j.findSome? dispatch?).getD 1

/-- The plan that the notice tells of, if it is made after `past` dispatches. -/
def roundPlan? (past : Nat) : Notice κ → Option (RoundPlan κ)
  | .scheduled .rounds now delay task => some ⟨past, now, delay, task⟩
  | _ => none

/-- The plans by rounds, in the order in which they were made. -/
def roundPlans : List (Notice κ) → List (RoundPlan κ)
  | [] => []
  | n :: j => roundPlans j ++ (roundPlan? (dispatches j).length n).toList

/-- The plans that no dispatch has taken, in the order in which they were made. -/
def pending (j : List (Notice κ)) : List (RoundPlan κ) :=
  (roundPlans j).filter fun p => p.takenBy? (dispatches j) = none

/-- The tasks that fall to a dispatch, given by its number, in the order in which they were put
down. -/
def caught (j : List (Notice κ)) (i : Nat) : List (Deferred κ) :=
  ((roundPlans j).filter fun p => p.takenBy? (dispatches j) = some i).map (·.task)

/-- Plans are made in the current round. A dispatch is held in the current round or in the next one,
and collects the tasks that fall to it. -/
structure RoundByRound (j : List (Notice κ)) : Prop where
  scheduled : ∀ later now delay task earlier,
    j = later ++ .scheduled .rounds now delay task :: earlier → now = round earlier
  collected : ∀ later now due earlier, j = later ++ .collected .rounds now due :: earlier →
    (now = round earlier ∨ now = saturateU64 ((round earlier).toNat + 1)) ∧
      due = caught j (dispatches earlier).length

variable {j ns : List (Notice κ)} {n : Notice κ} {p : RoundPlan κ} {i : Nat} {now delay : UInt64}
  {task : Deferred κ} {due : List (Deferred κ)}

theorem dispatches_cons : dispatches (n :: j) = dispatches j ++ (dispatch? n).toList := by
  unfold dispatches
  cases h : dispatch? n <;> simp [h]

theorem dispatches_collected :
    dispatches (.collected .rounds now due :: j) = dispatches j ++ [now] :=
  dispatches_cons

theorem dispatches_cons_other (hn : dispatch? n = none) : dispatches (n :: j) = dispatches j := by
  rw [dispatches_cons, hn]
  exact List.append_nil _

theorem past_of_mem_roundPlan? {past : Nat} (hp : p ∈ (roundPlan? past n).toList) :
    p.past = past := by
  rw [Option.mem_toList] at hp
  cases n with
  | scheduled calendar now delay task =>
    cases calendar with
    | turns => cases hp
    | rounds =>
      cases hp
      rfl
  | _ => cases hp

theorem past_le (hp : p ∈ roundPlans j) : p.past ≤ (dispatches j).length := by
  induction j with
  | nil => cases hp
  | cons n j ih =>
    rw [dispatches_cons, List.length_append]
    obtain hp | hp := List.mem_append.1 hp
    · have := ih hp
      omega
    · rw [past_of_mem_roundPlan? hp]
      exact Nat.le_add_right _ _

/-! ## What falls to a dispatch -/

/-- What falls to a dispatch that was held does not change any more. -/
theorem caught_cons (hi : i < (dispatches j).length) : caught (n :: j) i = caught j i := by
  have hnew : (roundPlan? (dispatches j).length n).toList.filter
      (fun p => p.takenBy? (dispatches (n :: j)) = some i) = [] := by
    rw [List.filter_eq_nil_iff]
    intro p hp htaken
    have hpast := (RoundPlan.lt_of_takenBy? (of_decide_eq_true htaken)).1
    rw [past_of_mem_roundPlan? hp] at hpast
    omega
  have hold : ∀ p ∈ roundPlans j, decide (p.takenBy? (dispatches (n :: j)) = some i) =
      decide (p.takenBy? (dispatches j) = some i) := by
    intro p hp
    rw [dispatches_cons]
    cases dispatch? n with
    | none => rw [Option.toList_none, List.append_nil]
    | some now =>
      rw [Option.toList_some, RoundPlan.takenBy?_append (past_le hp)]
      cases p.takenBy? (dispatches j) with
      | some k => rfl
      | none =>
        simp
        omega
  rw [caught, roundPlans, List.filter_append, hnew, List.append_nil, List.filter_congr hold, caught]

theorem caught_append (later : List (Notice κ)) (hi : i < (dispatches j).length) :
    caught (later ++ j) i = caught j i := by
  induction later with
  | nil => rfl
  | cons n later ih =>
    have hle : (dispatches j).length ≤ (dispatches (later ++ j)).length := by
      simp [dispatches]
    rw [List.cons_append, caught_cons (Nat.lt_of_lt_of_le hi hle), ih]

theorem pending_cons_other (hn : dispatch? n = none) :
    pending (n :: j) = pending j ++ (roundPlan? (dispatches j).length n).toList := by
  have hnew : ∀ p ∈ (roundPlan? (dispatches j).length n).toList,
      decide (p.takenBy? (dispatches j) = none) = true := fun p hp =>
    decide_eq_true (RoundPlan.takenBy?_eq_none (Nat.le_of_eq (past_of_mem_roundPlan? hp).symm))
  rw [pending, roundPlans, dispatches_cons_other hn, List.filter_append,
    List.filter_eq_self.2 hnew, pending]

/-- A dispatch leaves what is not yet due. -/
theorem pending_collected : pending (.collected .rounds now due :: j) =
    (pending j).filter fun p => !p.isDue now := by
  have hold : ∀ p ∈ roundPlans j,
      decide (p.takenBy? (dispatches (.collected .rounds now due :: j)) = none) =
        (!p.isDue now && decide (p.takenBy? (dispatches j) = none)) := by
    intro p hp
    rw [dispatches_collected, RoundPlan.takenBy?_append (past_le hp)]
    cases p.takenBy? (dispatches j) <;> cases p.isDue now <;> rfl
  rw [pending, pending, List.filter_filter, ← List.filter_congr hold]
  exact congrArg _ (List.append_nil _)

/-- To a dispatch falls what is due and was not taken before. -/
theorem caught_collected : caught (.collected .rounds now due :: j) (dispatches j).length =
    ((pending j).filter (·.isDue now)).map (·.task) := by
  have hold : ∀ p ∈ roundPlans j,
      decide (p.takenBy? (dispatches (.collected .rounds now due :: j)) =
        some (dispatches j).length) =
          (p.isDue now && decide (p.takenBy? (dispatches j) = none)) := by
    intro p hp
    rw [dispatches_collected, RoundPlan.takenBy?_append (past_le hp)]
    cases h : p.takenBy? (dispatches j) with
    | none => cases p.isDue now <;> simp
    | some k =>
      -- a dispatch before it has a smaller number
      have hlt := (RoundPlan.lt_of_takenBy? h).2
      simp
      omega
  rw [caught, pending, List.filter_filter, ← List.filter_congr hold]
  exact congrArg _ (congrArg _ (List.append_nil _))

/-! ## Journals -/

theorem RoundByRound.nil : RoundByRound ([] : List (Notice κ)) where
  scheduled later _ _ _ _ h := by cases later <;> cases h
  collected later _ _ _ h := by cases later <;> cases h

theorem RoundByRound.cons (h : RoundByRound j)
    (hs : ∀ now delay task, n = .scheduled .rounds now delay task → now = round j)
    (hc : ∀ now due, n = .collected .rounds now due →
      (now = round j ∨ now = saturateU64 ((round j).toNat + 1)) ∧
        due = caught (n :: j) (dispatches j).length) : RoundByRound (n :: j) where
  scheduled later now delay task earlier hj := by
    obtain ⟨-, hnew⟩ | ⟨later, rfl, hold⟩ := List.cons_eq_append_iff.1 hj
    · cases hnew
      exact hs now delay task rfl
    · exact h.scheduled later now delay task earlier hold
  collected later now due earlier hj := by
    obtain ⟨-, hnew⟩ | ⟨later, rfl, hold⟩ := List.cons_eq_append_iff.1 hj
    · cases hnew
      exact hc now due rfl
    · have hlt : (dispatches earlier).length < (dispatches j).length := by
        rw [hold]
        simp [dispatches, dispatch?]
      rw [caught_cons hlt]
      exact h.collected later now due earlier hold

end Journal

open Journal (dispatches pending caught RoundByRound)

/-! ## The turn order -/

/-- A turn order that agrees with a journal: it tells the current round, and its agenda holds the
plans that no dispatch has taken. -/
structure TurnOrder.CatchesUp {κ : Type} (o : TurnOrder (Deferred κ)) (j : List (Notice κ)) :
    Prop where
  round : o.round = Journal.round j
  policy : o.agenda.policy = .atOrBefore
  entries : o.agenda.entries = (pending j).map (·.entry)
  journal : RoundByRound j

namespace TurnOrder.CatchesUp

variable {κ : Type} {o o' : TurnOrder (Deferred κ)} {j ns : List (Notice κ)} {n : Notice κ}

theorem new (participants : List EntityId) :
    (TurnOrder.new participants).CatchesUp (κ := κ) [] where
  round := rfl
  policy := rfl
  entries := rfl
  journal := .nil

theorem congr (h : o.CatchesUp j) (hround : o'.round = o.round) (hagenda : o'.agenda = o.agenda) :
    o'.CatchesUp j :=
  ⟨hround.trans h.round, hagenda ▸ h.policy, hagenda ▸ h.entries, h.journal⟩

theorem cons_other (h : o.CatchesUp j) (hd : Journal.dispatch? n = none)
    (hp : ∀ past, Journal.roundPlan? past n = none) : o.CatchesUp (n :: j) where
  round := by
    rw [h.round, Journal.round, Journal.round, List.findSome?_cons, hd]
  policy := h.policy
  entries := by
    rw [Journal.pending_cons_other hd, hp, h.entries]
    exact congrArg _ (List.append_nil _).symm
  journal := by
    refine h.journal.cons ?_ ?_
    · rintro now delay task rfl
      cases hp 0
    · rintro now due rfl
      cases hd

theorem append_other (h : o.CatchesUp j)
    (hn : ∀ n ∈ ns, Journal.dispatch? n = none ∧ ∀ past, Journal.roundPlan? past n = none) :
    o.CatchesUp (ns ++ j) := by
  induction ns with
  | nil => exact h
  | cons n ns ih =>
    obtain ⟨hd, hp⟩ := hn n List.mem_cons_self
    exact (ih fun m hm => hn m (List.mem_cons_of_mem _ hm)).cons_other hd hp

theorem schedule (h : o.CatchesUp j) (delay : UInt64) (d : Deferred κ) :
    (o.schedule delay d).CatchesUp (.scheduled .rounds o.round delay d :: j) where
  round := h.round
  policy := h.policy
  entries := by
    rw [Journal.pending_cons_other rfl, List.map_append, ← h.entries]
    rfl
  journal := by
    refine h.journal.cons ?_ ?_
    · intro now delay' task hnew
      cases hnew
      exact h.round
    · rintro now due hnew
      cases hnew

/-- A dispatch in the current round or the next finds what falls to it, and leaves the rest. -/
theorem takeDue (h : o.CatchesUp j) (o' : TurnOrder (Deferred κ)) (hagenda : o'.agenda = o.agenda)
    (hround : o'.round = o.round ∨ o'.round = saturateU64 (o.round.toNat + 1)) :
    o'.takeDue.1.map (·.item) =
        caught (.collected .rounds o'.round (o'.takeDue.1.map (·.item)) :: j)
          (dispatches j).length ∧
      o'.takeDue.2.CatchesUp
        (.collected .rounds o'.round (o'.takeDue.1.map (·.item)) :: j) := by
  have hdue : o'.takeDue.1.map (·.item) =
      caught (.collected .rounds o'.round (o'.takeDue.1.map (·.item)) :: j)
        (dispatches j).length := by
    have hfilter : ∀ p ∈ pending j, (o.agenda.isDue o'.round ∘ RoundPlan.entry) p =
        p.isDue o'.round := fun p _ => RoundPlan.isDue_entry h.policy
    rw [Journal.caught_collected, ← List.filter_congr hfilter]
    show (o'.agenda.entries.filter (o'.agenda.isDue o'.round)).map (·.item) = _
    rw [hagenda, h.entries, List.filter_map, List.map_map]
    rfl
  refine ⟨hdue, rfl, (congrArg Agenda.policy hagenda).trans h.policy, ?_, h.journal.cons ?_ ?_⟩
  · have hfilter : ∀ p ∈ pending j, (o.agenda.isPending o'.round ∘ RoundPlan.entry) p =
        !p.isDue o'.round := fun p _ => RoundPlan.isPending_entry h.policy
    rw [Journal.pending_collected, ← List.filter_congr hfilter]
    show o'.agenda.entries.filter (o'.agenda.isPending o'.round) = _
    rw [hagenda, h.entries, List.filter_map]
  · intro now delay task hnew
    cases hnew
  · intro now due hnew
    cases hnew
    exact ⟨h.round ▸ hround, hdue⟩

/-- A round that starts and a turn that ends find what falls to them, and leave the rest. -/
theorem gather {k : Dispatch} {e : Engine κ} (h : e.order.CatchesUp j) (hk : k.calendar = .rounds) :
    (k.gather e).1.1.map (·.item) = caught (.collected .rounds (k.gather e).1.2
        ((k.gather e).1.1.map (·.item)) :: j) (dispatches j).length ∧
      (k.gather e).2.order.CatchesUp (.collected .rounds (k.gather e).1.2
        ((k.gather e).1.1.map (·.item)) :: j) := by
  cases k with
  | nextTurn => cases hk
  | startRound =>
    exact h.takeDue { e.order with
      round := saturateU64 (e.order.round.toNat + 1)
      index := 0 } rfl (.inr rfl)
  | endTurn => exact h.takeDue e.order rfl (.inl rfl)

end TurnOrder.CatchesUp

/-! ## Runs -/

section
variable {κ σ : Type}

/-- Every passage keeps what was put down for later rounds. -/
theorem Passage.catchesUp {m m' : List (Duty κ) × Session κ σ} (hp : Passage m m')
    (h : m.2.engine.order.CatchesUp m.2.journal) : m'.2.engine.order.CatchesUp m'.2.journal := by
  cases hp with
  | calm hcalm =>
    obtain ⟨ns, hj, hn⟩ := hcalm.journal
    rw [hj]
    refine (h.congr hcalm.time.round hcalm.time.agenda).append_other fun n hm => ?_
    have hagenda := hn n hm
    cases n with
    | scheduled | collected | running => cases hagenda
    | _ => exact ⟨rfl, fun _ => rfl⟩
  | schedule => exact h.cons_other rfl fun _ => rfl
  | scheduleRounds rounds task p => exact h.schedule rounds ⟨task, p⟩
  | collect k =>
    cases k with
    | nextTurn => exact h.cons_other rfl fun _ => rfl
    | startRound => exact (h.gather (k := .startRound) rfl).2
    | endTurn => exact (h.gather (k := .endTurn) rfl).2
  | begin => exact h.cons_other rfl fun _ => rfl
  | finish => exact h

theorem Passages.catchesUp {m m' : List (Duty κ) × Session κ σ} (hp : Passages m m')
    (h : m.2.engine.order.CatchesUp m.2.journal) : m'.2.engine.order.CatchesUp m'.2.journal := by
  induction hp with
  | refl => exact h
  | tail _ hp ih => exact hp.catchesUp ih

end

namespace Run

variable {κ σ : Type}

theorem passes_turnOf (host : Host κ σ) (depth : Nat) (entity : Option EntityId) :
    Passes (turnOf host (code host depth) entity) := by
  cases entity with
  | none => exact passes_pure _
  | some entity =>
    exact (passes_traversal host).takeTurn ((passes_traversal host).code host.within_free depth) _

/-- A dispatch by rounds takes off the agenda all that falls to it, and does it in order, whatever
fails. -/
structure Clears (host : Host κ σ) (invoke : Invoke κ σ) (k : Dispatch) (s : Session κ σ)
    (outcomes : List (Except Failure Unit)) (s' : Session κ σ) : Prop where
  begun : begun s'.journal (collections s.journal) =
    caught s'.journal (dispatches s.journal).length
  works : ∃ b, s.budget = b + 1 ∧ (caught s'.journal (dispatches s.journal).length).mapM
    (runTask host invoke (collections s.journal)) { s with
      engine := (k.gather s.engine).2
      journal := .collected .rounds (k.gather s.engine).1.2
        (caught s'.journal (dispatches s.journal).length) :: s.journal
      budget := b } = .ok outcomes s'

end Run

namespace Session

section
variable {κ σ : Type} {host : Host κ σ} {duties : List (Duty κ)} {s s' : Session κ σ}

theorem collect_clears {depth : Nat} {k : Dispatch} {answer : Except Failure UInt64}
    (hk : k.calendar = .rounds) (hledger : Ledger duties s.journal)
    (horder : s.engine.order.CatchesUp s.journal)
    (h : Run.collect host (Run.code host depth) k s = .ok answer s') :
    ∃ outcomes, Run.Clears host (Run.code host depth) k s outcomes s' ∧
      answer = (Run.firstOf outcomes).map fun _ => (k.gather s.engine).1.2 := by
  obtain ⟨hbegun, ⟨later, hj⟩, b, outcomes, hb, hmap, rfl⟩ := collect_does_all hledger rfl rfl h
  have hdue : (k.gather s.engine).1.1.map (·.item) =
      caught s'.journal (dispatches s.journal).length := by
    have hlt : (dispatches s.journal).length < (dispatches (.collected .rounds
        (k.gather s.engine).1.2 ((k.gather s.engine).1.1.map (·.item)) :: s.journal)).length := by
      simp [Journal.dispatches_collected]
    rw [hj, hk, Journal.caught_append later hlt]
    exact (horder.gather hk).1
  rw [hdue, hk] at hmap
  exact ⟨outcomes, ⟨hbegun.trans hdue, b, hb, hmap⟩, rfl⟩

/-- A round that starts does all that falls to it. -/
theorem startRound_clears {depth : Nat} {answer : Except Failure UInt64}
    (hledger : Ledger duties s.journal) (horder : s.engine.order.CatchesUp s.journal)
    (h : Run.startRound host (Run.code host depth) s = .ok answer s') :
    ∃ outcomes, Run.Clears host (Run.code host depth) .startRound s outcomes s' ∧
      answer = (Run.firstOf outcomes).map fun _ => saturateU64 (s.engine.order.round.toNat + 1) :=
  collect_clears rfl hledger horder h

/-- A turn that ends does all that falls to its end, whatever came of its course. -/
theorem playTurn_clears {depth : Nat} {answer : Except Failure TurnOutcome}
    (hledger : Ledger duties s.journal) (horder : s.engine.order.CatchesUp s.journal)
    (h : Run.playTurn host (Run.code host depth) s = .ok answer s') :
    ∃ course s₁ outcomes s₂ b,
      Run.turnOf host (Run.code host depth) s.engine.order.current? s = .ok course s₁ ∧
        Run.Clears host (Run.code host depth) .endTurn s₁ outcomes s₂ ∧
          s₂.budget = b + 1 ∧
          s' = { s₂ with
            engine := { s₂.engine with order := s₂.engine.order.next }
            budget := b } ∧
          answer = course.bind fun outcome => (Run.firstOf outcomes).map fun _ => outcome := by
  rw [Run.playTurn_eq, Run.engine_bind] at h
  obtain ⟨course, s₁, hcourse, h⟩ := Run.bind_eq_ok.1 h
  obtain ⟨ended, s₃, hend, h⟩ := Run.bind_eq_ok.1 h
  obtain ⟨rfl, rfl⟩ := Run.pure_eq_ok.1 h
  rw [Run.endTurn_eq] at hend
  obtain ⟨collected, s₂, hcollect, hend⟩ := Run.bind_eq_ok.1 hend
  obtain ⟨_, s₄, hpass, hend⟩ := Run.bind_eq_ok.1 hend
  obtain ⟨rfl, rfl⟩ := Run.pure_eq_ok.1 hend
  obtain ⟨b, hb, -, rfl⟩ := Run.change_eq_ok.1 hpass
  -- the course of the turn is made of passages too, so its end finds everything in order
  have hp := (Run.passes_turnOf host depth _).passages hcourse duties
  obtain ⟨outcomes, hclears, rfl⟩ := collect_clears rfl (Ledger.passages hp hledger)
    (hp.catchesUp horder) hcollect
  refine ⟨course, s₁, outcomes, s₂, b, hcourse, hclears, hb, rfl, ?_⟩
  cases Run.firstOf outcomes <;> rfl

end

end Session

/-! ## Whole runs -/

/-- A host with one piece of code, which puts an event down for the current round and starts the
next one. -/
def Host.restless : Host Unit Unit where
  holds _ _ s := (true, s)
  behaviour _ p := .perform (.change (.scheduleRounds 0 (.emit "echo") p)) fun _ =>
    .perform .startRound fun _ => .done (.untouched p)
  decide _ _ _ s := (none, s)
  objection _ _ := none
  describe _ := "stir"
  alerted _ s := s
  play _ s := (.ok (), s)
  silence s := s

/-- With nobody to play, events are put down for the first and the third round, and code that starts
a round for the second; then a turn is played, and a round started. -/
def Session.reveille : Program Unit Unit (Except Failure UInt64) :=
  .perform (.change (.scheduleRounds 2 (.emit "dusk") {})) fun _ =>
    .perform (.change (.scheduleRounds 0 (.emit "dawn") {})) fun _ =>
      .perform (.change (.scheduleRounds 1 (.run ()) {})) fun _ =>
        .perform .playTurn fun _ => .perform .startRound .done

namespace Session

/-- Tasks for later rounds are never lost. At any moment of any run, a task that was put down for
rounds later stands on the agenda as long as there was no dispatch since in its round or past it,
and the first such dispatch collected it, among all that fell to that dispatch, in the order in
which they were put down. Of every collection a first part was begun, and all of it if the run came
to its end; and nothing else was begun. Whenever a round is started or a turn is played, all that
falls to the dispatch is done in order, whatever fails. -/
theorem round_tasks_never_lost {κ σ α : Type} {host : Host κ σ} {p : Program κ σ α}
    {world : WorldId} {settings : Settings} {state : σ} {budget : Nat} {s : Session κ σ}
    (hs : (opening world settings state budget).reached host p = s) :
    (s.engine.order.round = Journal.round s.journal ∧ RoundByRound s.journal ∧
      s.engine.order.agenda.entries = (pending s.journal).map (·.entry)) ∧
    (∀ later now due earlier, s.journal = later ++ .collected .rounds now due :: earlier →
      begun earlier (collections earlier) = [] ∧ begun s.journal (collections earlier) <+: due ∧
        ((opening world settings state budget).ends host p = true →
          begun s.journal (collections earlier) = due)) ∧
    (∀ c d, .running c d ∈ s.journal → ∃ later calendar now due earlier,
      s.journal = later ++ .collected calendar now due :: earlier ∧ c = collections earlier) ∧
    (∀ depth b answer s',
      Run.startRound host (Run.code host depth) { s with budget := b } = .ok answer s' →
      ∃ outcomes,
        Run.Clears host (Run.code host depth) .startRound { s with budget := b } outcomes s' ∧
        answer = (Run.firstOf outcomes).map fun _ =>
          saturateU64 (s.engine.order.round.toNat + 1)) ∧
    ∀ depth b answer s',
      Run.playTurn host (Run.code host depth) { s with budget := b } = .ok answer s' →
      ∃ course s₁ outcomes s₂ b',
        Run.turnOf host (Run.code host depth) s.engine.order.current? { s with budget := b } =
          .ok course s₁ ∧
        Run.Clears host (Run.code host depth) .endTurn s₁ outcomes s₂ ∧
        s₂.budget = b' + 1 ∧
        s' = { s₂ with
          engine := { s₂.engine with order := s₂.engine.order.next }
          budget := b' } ∧
        answer = course.bind fun outcome => (Run.firstOf outcomes).map fun _ => outcome := by
  subst hs
  obtain ⟨duties, hpass⟩ := reached_passages host p (opening world settings state budget)
  have horder := hpass.catchesUp (TurnOrder.CatchesUp.new [])
  have hledger := Ledger.passages hpass .nil
  obtain ⟨hbegun, hknown⟩ :=
    begun_of_collected host p (s := opening world settings state budget) rfl
  exact ⟨⟨horder.round, horder.journal, horder.entries⟩,
    fun later now due earlier hj => hbegun later .rounds now due earlier hj, hknown,
    fun depth b answer s' h => startRound_clears hledger horder h,
    fun depth b answer s' h => playTurn_clears (s := { reached host p
      (opening world settings state budget) with budget := b }) hledger horder h⟩

/-- So it is when nobody plays and the code that is put down for the second round starts the third
at once, with an event put down just before. -/
theorem round_tasks_never_lost_reveille : ∃ s, (opening Engine.defaultWorld {} () 100).reached
      .restless reveille = s ∧ dispatches s.journal = [1, 2, 3] ∧
    [0, 1, 2].map (fun i => (caught s.journal i).map (·.task)) =
      [[.emit "dawn"], [.run ()], [.emit "dusk", .emit "echo"]] ∧
    RoundByRound s.journal ∧
    (∀ later now due earlier, s.journal = later ++ .collected .rounds now due :: earlier →
      begun s.journal (collections earlier) = due) ∧
    ∃ answer s', Run.startRound .restless (Run.code .restless 1) { s with budget := 10 } =
        .ok answer s' ∧
      ∃ outcomes, Run.Clears .restless (Run.code .restless 1) .startRound { s with budget := 10 }
        outcomes s' := by
  obtain ⟨⟨-, hrounds, -⟩, hbegun, -, hstart, -⟩ :=
    @round_tasks_never_lost _ _ _ .restless reveille Engine.defaultWorld {} () 100 _ rfl
  have hends : (opening Engine.defaultWorld {} () 100).ends .restless reveille = true := by
    decide +kernel
  obtain ⟨answer, s', h, -⟩ := Run.ok_of_check (s := { (opening Engine.defaultWorld {} ()
      100).reached .restless reveille with budget := 10 })
    (Run.startRound .restless (Run.code .restless 1)) (fun _ _ => True) (by decide +kernel)
  obtain ⟨outcomes, hclears, -⟩ := hstart 1 10 answer s' h
  exact ⟨_, rfl, by decide +kernel, by decide +kernel, hrounds, fun later now due earlier hj =>
    (hbegun later now due earlier hj).2.2 hends, answer, s', h, outcomes, hclears⟩

end Session

end Encounter
