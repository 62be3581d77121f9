import Encounter.Turn.Agenda

/-!
# What becomes of an entry

An agenda is dispatched at any times, in any order, with entries put down in between. An entry
waits as long as the dispatches come before its turn (`isPending_eq`). The first one that does not
come before it decides (`Pushed.decision?`): it takes the entry, unless the policy asks for the very
turn and the time is a later one; then the entry is gone. `run_eq` follows this through a history
from any agenda, and `decided_once` is the case of an agenda that is empty at first.

The turns that have an entry are listed strictly ascending (`pairwise_turns`, `mem_turns`).
-/

set_option autoImplicit false

namespace Encounter.Agenda

variable {α : Type} {a : Agenda α} {entry : AgendaEntry α} {turn t now : UInt64}

/-! ## One dispatch -/

theorem isDue_of_ahead (h : now < entry.turn) : a.isDue now entry = false := by
  have hne : entry.turn ≠ now := fun he => UInt64.lt_irrefl now (he ▸ h)
  cases hp : a.policy <;> simp [isDue, DuePolicy.isDue, hp, hne, h]

/-- Whatever the policy, an entry stays if and only if its turn is ahead. -/
theorem isPending_eq : a.isPending now entry = decide (now < entry.turn) := by
  by_cases h : now < entry.turn
  · simp [isPending, isDue_of_ahead h, h, UInt64.le_of_lt h]
  · rw [isPending, decide_eq_false h, Bool.and_eq_false_iff]
    by_cases hle : now ≤ entry.turn
    · have he : entry.turn = now := UInt64.le_antisymm (UInt64.not_lt.1 h) hle
      exact .inl (by cases hp : a.policy <;> simp [isDue, DuePolicy.isDue, hp, he])
    · exact .inr (decide_eq_false hle)

/-! ## Turns -/

theorem mem_insertTurn {list : List UInt64} : t ∈ insertTurn turn list ↔ t = turn ∨ t ∈ list := by
  induction list with
  | nil => simp [insertTurn]
  | cons first rest ih =>
    rw [insertTurn]
    split
    · simp
    · split
      · rename_i he
        simp [he]
      · rw [List.mem_cons, ih, List.mem_cons, or_left_comm]

theorem pairwise_insertTurn {list : List UInt64} (h : list.Pairwise (· < ·)) :
    (insertTurn turn list).Pairwise (· < ·) := by
  induction list with
  | nil => exact List.pairwise_singleton _ _
  | cons first rest ih =>
    obtain ⟨hfirst, hrest⟩ := List.pairwise_cons.1 h
    rw [insertTurn]
    split
    · rename_i hlt
      refine List.pairwise_cons.2 ⟨fun t ht => ?_, h⟩
      rcases List.mem_cons.1 ht with rfl | ht
      · exact hlt
      · exact UInt64.lt_trans hlt (hfirst t ht)
    · rename_i hle
      split
      · exact h
      · rename_i hne
        have hlt : first < turn := UInt64.lt_of_le_of_ne (UInt64.not_lt.1 hle) (Ne.symm hne)
        refine List.pairwise_cons.2 ⟨fun t ht => ?_, ih hrest⟩
        rcases mem_insertTurn.1 ht with rfl | ht
        · exact hlt
        · exact hfirst t ht

theorem pairwise_turns (a : Agenda α) : a.turns.Pairwise (· < ·) := by
  rw [turns]
  induction a.entries with
  | nil => exact List.Pairwise.nil
  | cons entry rest ih => exact pairwise_insertTurn ih

theorem mem_turns : t ∈ a.turns ↔ ∃ entry ∈ a.entries, entry.turn = t := by
  rw [turns]
  induction a.entries with
  | nil => simp
  | cons entry rest ih =>
    rw [List.map_cons, List.foldr_cons, mem_insertTurn, ih]
    simp [eq_comm]

/-! ## Histories -/

/-- What is done to an agenda. -/
inductive Act (α : Type) where
  | push (turn : UInt64) (item : α)
  | takeDue (now : UInt64)
  deriving DecidableEq, Repr

/-- Does one thing after the other. Gives what each dispatch took, and what is left in the end. -/
def run : List (Act α) → Agenda α → List (List (AgendaEntry α)) × Agenda α
  | [], a => ([], a)
  | .push turn item :: acts, a => run acts (a.push turn item)
  | .takeDue now :: acts, a =>
    let (due, a) := a.takeDue now
    let (answers, a) := run acts a
    (due :: answers, a)

/-- A dispatch in a history: how many there were before it, and its time. -/
structure Sweep where
  number : Nat
  now : UInt64
  deriving DecidableEq, Repr

/-- The dispatches of a history, numbered from `first` on. -/
def sweeps (first : Nat) : List (Act α) → List Sweep
  | [] => []
  | .push .. :: acts => sweeps first acts
  | .takeDue now :: acts => ⟨first, now⟩ :: sweeps (first + 1) acts

/-- An entry that was put down, and the dispatches that came after that. -/
structure Pushed (α : Type) where
  entry : AgendaEntry α
  later : List Sweep
  deriving DecidableEq, Repr

/-- What is put down in a history, in that order; its dispatches are numbered from `first` on. -/
def pushes (first : Nat) : List (Act α) → List (Pushed α)
  | [] => []
  | .push turn item :: acts => ⟨⟨turn, item⟩, sweeps first acts⟩ :: pushes first acts
  | .takeDue _ :: acts => pushes (first + 1) acts

/-- The dispatch that decides about the entry: the first one after it was put down that does not
come before its turn. -/
def Pushed.decision? (p : Pushed α) : Option Sweep :=
  p.later.find? fun d => p.entry.turn ≤ d.now

/-- Does nothing decide about the entry? -/
def Pushed.isOpen (p : Pushed α) : Bool :=
  p.decision?.isNone

/-- Does a dispatch that decides about an entry take it? Where only the very turn will do, it has to
come at that turn. -/
def Sweep.suits (policy : DuePolicy) (turn : UInt64) (d : Sweep) : Bool :=
  match policy with
  | .exactTurn => turn = d.now
  | .atOrBefore => true

/-- Does this dispatch decide about the entry and take it? -/
def Pushed.isTakenBy (policy : DuePolicy) (d : Sweep) (p : Pushed α) : Bool :=
  p.decision? = some d && d.suits policy p.entry.turn

section
variable {policy : DuePolicy} {acts : List (Act α)} {first : Nat} {d : Sweep} {p : Pushed α}
  {later : List Sweep}

/-! ## Decisions -/

theorem Pushed.decision?_cons_of_le (h : entry.turn ≤ d.now) :
    (⟨entry, d :: later⟩ : Pushed α).decision? = some d := by
  simp [decision?, h]

theorem Pushed.decision?_cons_of_lt (h : d.now < entry.turn) :
    (⟨entry, d :: later⟩ : Pushed α).decision? = (⟨entry, later⟩ : Pushed α).decision? := by
  simp [decision?, UInt64.not_le.2 h]

theorem Pushed.mem_of_isTakenBy (h : p.isTakenBy policy d = true) : d ∈ p.later :=
  List.mem_of_find?_eq_some (of_decide_eq_true (Bool.and_eq_true_iff.1 h).1)

theorem le_of_mem_sweeps (h : d ∈ sweeps first acts) : first ≤ d.number := by
  induction acts generalizing first with
  | nil => cases h
  | cons act acts ih =>
    cases act with
    | push turn item => exact ih h
    | takeDue now =>
      rcases List.mem_cons.1 h with rfl | h
      · exact Nat.le_refl _
      · exact Nat.le_of_succ_le (ih h)

theorem le_of_mem_later (hp : p ∈ pushes first acts) (h : d ∈ p.later) : first ≤ d.number := by
  induction acts generalizing first with
  | nil => cases hp
  | cons act acts ih =>
    cases act with
    | push turn item =>
      rcases List.mem_cons.1 hp with rfl | hp
      · exact le_of_mem_sweeps h
      · exact ih hp
    | takeDue now => exact Nat.le_of_succ_le (ih hp)

/-- The dispatches of a history are told apart by their numbers. -/
theorem numbers_sweeps (first : Nat) (acts : List (Act α)) :
    (sweeps first acts).map Sweep.number = List.range' first (sweeps first acts).length := by
  induction acts generalizing first with
  | nil => rfl
  | cons act acts ih =>
    cases act with
    | push turn item => exact ih first
    | takeDue now => simp [sweeps, ih, List.range'_succ]

/-! ## Entries that wait at the beginning of a history -/

/-- The entries of the agenda, as if they had been put down just before the history. -/
def held (a : Agenda α) (first : Nat) (acts : List (Act α)) : List (Pushed α) :=
  a.entries.map fun entry => ⟨entry, sweeps first acts⟩

theorem held_push (item : α) : (a.push turn item).held first acts =
    a.held first acts ++ [⟨⟨turn, item⟩, sweeps first acts⟩] := by
  simp [held, push]

/-- The dispatch that comes next takes the entries that are due then. -/
theorem taken_next (a : Agenda α) (now : UInt64) (first : Nat) (acts : List (Act α)) :
    (((a.held first (.takeDue now :: acts) ++ pushes (first + 1) acts).filter
      (·.isTakenBy a.policy ⟨first, now⟩)).map (·.entry)) = a.entries.filter (a.isDue now) := by
  have hnew : (pushes (first + 1) acts).filter (·.isTakenBy a.policy ⟨first, now⟩) = [] := by
    rw [List.filter_eq_nil_iff]
    intro p hp htaken
    exact absurd (le_of_mem_later hp (Pushed.mem_of_isTakenBy htaken)) (Nat.lt_irrefl first)
  rw [List.filter_append, hnew, List.append_nil, held, List.filter_map, List.map_map]
  refine (List.map_id' _).trans (List.filter_congr fun entry _ => ?_)
  show Pushed.isTakenBy a.policy ⟨first, now⟩ ⟨entry, ⟨first, now⟩ :: sweeps (first + 1) acts⟩ = _
  by_cases h : entry.turn ≤ now
  · rw [Pushed.isTakenBy, Pushed.decision?_cons_of_le h]
    cases hp : a.policy <;> simp [Sweep.suits, isDue, DuePolicy.isDue, hp, h]
  · have hlt := UInt64.not_le.1 h
    rw [isDue_of_ahead hlt, Pushed.isTakenBy, Pushed.decision?_cons_of_lt hlt, ← Bool.not_eq_true]
    intro htaken
    have hmem : (⟨first, now⟩ : Sweep) ∈ sweeps (first + 1) acts :=
      List.mem_of_find?_eq_some (of_decide_eq_true (Bool.and_eq_true_iff.1 htaken).1)
    exact absurd (le_of_mem_sweeps hmem) (Nat.lt_irrefl first)

/-- Whatever asks for another decision than that of the next dispatch finds the entries that wait
after it as it found them before, with whatever is put down later. -/
theorem filter_held_takeDue (a : Agenda α) (now : UInt64) (first : Nat) (acts : List (Act α))
    (new : List (Pushed α)) (f : Pushed α → Bool)
    (hf : ∀ entry, entry.turn ≤ now → f ⟨entry, sweeps first (.takeDue now :: acts)⟩ = false)
    (hlater : ∀ entry, now < entry.turn →
      f ⟨entry, sweeps first (.takeDue now :: acts)⟩ = f ⟨entry, sweeps (first + 1) acts⟩) :
    ((a.held first (.takeDue now :: acts) ++ new).filter f).map (·.entry) =
      (((a.takeDue now).2.held (first + 1) acts ++ new).filter f).map (·.entry) := by
  rw [List.filter_append, List.filter_append, List.map_append, List.map_append]
  refine congrArg (· ++ _) ?_
  simp only [held, takeDue, List.filter_map, List.map_map, List.filter_filter]
  refine congrArg _ (List.filter_congr fun entry _ => ?_)
  rw [isPending_eq]
  by_cases h : entry.turn ≤ now
  · simp [hf entry h, UInt64.not_lt.2 h]
  · simp [hlater entry (UInt64.not_le.1 h), UInt64.not_le.1 h]

/-! ## Whole histories -/

/-- Each dispatch takes, of the entries that wait at first or are put down before it, those that it
decides about and that its time suits; in the end those wait that nothing has decided about. -/
theorem run_eq (acts : List (Act α)) (a : Agenda α) (first : Nat) :
    (run acts a).1 = (sweeps first acts).map (fun d =>
      ((a.held first acts ++ pushes first acts).filter (·.isTakenBy a.policy d)).map (·.entry)) ∧
    (run acts a).2.entries =
      ((a.held first acts ++ pushes first acts).filter (·.isOpen)).map (·.entry) := by
  induction acts generalizing a first with
  | nil =>
    have hopen : (a.held first []).filter (·.isOpen) = a.held first [] := by
      rw [List.filter_eq_self]
      intro p hp
      obtain ⟨entry, -, rfl⟩ := List.mem_map.1 hp
      rfl
    refine ⟨rfl, ?_⟩
    rw [pushes, List.append_nil, hopen, held, List.map_map]
    exact (List.map_id' _).symm
  | cons act acts ih =>
    cases act with
    | push turn item =>
      have hih := ih (a.push turn item) first
      rw [held_push, List.append_assoc] at hih
      exact hih
    | takeDue now =>
      obtain ⟨hanswers, hrest⟩ := ih (a.takeDue now).2 (first + 1)
      constructor
      · refine List.cons_eq_cons.2 ⟨(taken_next a now first acts).symm, hanswers.trans ?_⟩
        refine List.map_congr_left fun d hd => ?_
        have hne : (⟨first, now⟩ : Sweep) ≠ d := by
          rintro rfl
          exact absurd (le_of_mem_sweeps hd) (Nat.lt_irrefl first)
        refine (filter_held_takeDue a now first acts _ _ (fun e he => ?_) fun e he => ?_).symm
        · rw [Pushed.isTakenBy, sweeps, Pushed.decision?_cons_of_le he]
          simp [hne]
        · rw [Pushed.isTakenBy, Pushed.isTakenBy, sweeps, Pushed.decision?_cons_of_lt he]
      · refine hrest.trans
          (filter_held_takeDue a now first acts _ _ (fun e he => ?_) fun e he => ?_).symm
        · rw [Pushed.isOpen, sweeps, Pushed.decision?_cons_of_le he]
          rfl
        · rw [Pushed.isOpen, Pushed.isOpen, sweeps, Pushed.decision?_cons_of_lt he]

end

/-- In every history each entry that was put down is decided about once, by the first dispatch
after that which does not come before its turn. There it is taken, or gone for good; until then it
waits. What is taken and what waits is in the order in which it was put down. -/
theorem decided_once (policy : DuePolicy) (acts : List (Act α)) :
    (sweeps 0 acts).map Sweep.number = List.range' 0 (sweeps 0 acts).length ∧
    (run acts (empty policy)).1 = (sweeps 0 acts).map (fun d =>
      ((pushes 0 acts).filter (·.isTakenBy policy d)).map (·.entry)) ∧
    (run acts (empty policy)).2.entries =
      ((pushes 0 acts).filter (·.isOpen)).map (·.entry) ∧
    (run acts (empty policy)).2.turns.Pairwise (· < ·) ∧
    ∀ turn, turn ∈ (run acts (empty policy)).2.turns ↔
      ∃ entry ∈ (run acts (empty policy)).2.entries, entry.turn = turn := by
  obtain ⟨hanswers, hrest⟩ := run_eq acts (empty policy) 0
  exact ⟨numbers_sweeps 0 acts, hanswers, hrest, pairwise_turns _, fun _ => mem_turns⟩

end Encounter.Agenda
