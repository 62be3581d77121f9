import Encounter.Proofs.Duties

/-!
# The ledger of collections

Collections are numbered in the order in which they were made, and a task that is begun is written
down under the number of its collection. So a journal tells of every collection which of its tasks
were begun (`Journal.begun`). Together with those that are still a duty they are what was due, in
that order (`Ledger.passages`): nothing that was collected is lost, done twice or done out of order.
-/

set_option autoImplicit false

namespace Encounter

variable {κ σ : Type}

/-- Does the notice tell of a task that was begun? -/
def Notice.isRunning : Notice κ → Bool
  | .running .. => true
  | _ => false

namespace Journal

/-- The number of collections. -/
def collections (j : List (Notice κ)) : Nat :=
  j.countP Notice.isCollected

/-- The task that the notice tells was begun, if it is one of the collection. -/
def begun? (c : Nat) : Notice κ → Option (Deferred κ)
  | .running i d => if i = c then some d else none
  | _ => none

/-- The tasks of a collection that were begun, in this order. -/
def begun (j : List (Notice κ)) (c : Nat) : List (Deferred κ) :=
  (j.filterMap (begun? c)).reverse

variable {j ns : List (Notice κ)} {c : Nat} {d : Deferred κ}

theorem begun_append (hn : ∀ n ∈ ns, n.isRunning = false) : begun (ns ++ j) c = begun j c := by
  have hnone : ns.filterMap (begun? c) = [] := by
    rw [List.filterMap_eq_nil_iff]
    intro n h
    have hr := hn n h
    cases n with
    | running => cases hr
    | _ => rfl
  rw [begun, List.filterMap_append, hnone, List.nil_append, begun]

theorem begun_cons {n : Notice κ} (hn : n.isRunning = false) : begun (n :: j) c = begun j c :=
  @begun_append κ j [n] c (by simpa using hn)

theorem begun_running {i : Nat} : begun (.running i d :: j) c =
    begun j c ++ if i = c then [d] else [] := by
  by_cases h : i = c <;> simp [begun, begun?, h]

theorem mem_begun : d ∈ begun j c ↔ .running c d ∈ j := by
  simp only [begun, List.mem_reverse, List.mem_filterMap]
  constructor
  · rintro ⟨n, hn, hd⟩
    cases n with
    | running i d' =>
      simp only [begun?] at hd
      split at hd
      · rename_i h
        cases hd
        exact h ▸ hn
      · cases hd
    | _ => cases hd
  · exact fun h => ⟨_, h, if_pos rfl⟩

theorem collections_append (hn : ∀ n ∈ ns, n.isCollected = false) :
    collections (ns ++ j) = collections j := by
  have hzero : ns.countP Notice.isCollected = 0 := by
    rw [List.countP_eq_zero]
    intro n h
    rw [hn n h]
    decide
  rw [collections, List.countP_append, hzero, Nat.zero_add, collections]

theorem collections_le_append (later earlier : List (Notice κ)) :
    collections earlier ≤ collections (later ++ earlier) := by
  rw [collections, collections, List.countP_append]
  omega

theorem collections_cons (n : Notice κ) :
    collections (n :: j) = collections j + if n.isCollected then 1 else 0 :=
  List.countP_cons

/-- Every number of a collection is that of one. -/
theorem exists_collected (h : c < collections j) : ∃ later calendar now due earlier,
    j = later ++ .collected calendar now due :: earlier ∧ collections earlier = c := by
  induction j with
  | nil => cases h
  | cons n j ih =>
    rw [collections_cons] at h
    by_cases hc : c < collections j
    · obtain ⟨later, calendar, now, due, earlier, hj, hcoll⟩ := ih hc
      exact ⟨n :: later, calendar, now, due, earlier, congrArg (n :: ·) hj, hcoll⟩
    · cases n with
      | collected calendar now due =>
        simp only [Notice.isCollected, if_true] at h
        exact ⟨[], calendar, now, due, j, rfl, by omega⟩
      | _ => exact absurd h hc

end Journal

/-- The tasks of a collection that are left to do. -/
def Duty.leftOf (duties : List (Duty κ)) (c : Nat) : List (Deferred κ) :=
  duties.flatMap fun duty => if duty.collection = c then duty.left else []

open Journal (collections begun)
open Duty (leftOf)

/-- Of each collection, what was begun and what is left to do make up what was due. Tasks are begun
after they were collected. -/
structure Ledger (duties : List (Duty κ)) (j : List (Notice κ)) : Prop where
  balance : ∀ later calendar now due earlier, j = later ++ .collected calendar now due :: earlier →
    begun j (collections earlier) ++ leftOf duties (collections earlier) = due
  after : ∀ later c d earlier, j = later ++ .running c d :: earlier → c < collections earlier
  known : ∀ duty ∈ duties, duty.collection < collections j

namespace Ledger

variable {duties : List (Duty κ)} {j ns : List (Notice κ)} {c : Nat} {d : Deferred κ}
  {left : List (Deferred κ)}

theorem nil : Ledger (κ := κ) [] [] where
  balance later _ _ _ _ h := by cases later <;> cases h
  after later _ _ _ h := by cases later <;> cases h
  known _ h := by cases h

theorem lt_collections (h : Ledger duties j) (hd : .running c d ∈ j) : c < collections j := by
  obtain ⟨later, earlier, rfl⟩ := List.append_of_mem hd
  have hlt := h.after later c d earlier rfl
  have hle := Journal.collections_le_append (later ++ [.running c d]) earlier
  rw [List.append_assoc, List.singleton_append] at hle
  omega

/-- At no time was anything begun of a collection that was yet to be made. -/
theorem begun_eq_nil {later earlier : List (Notice κ)} (h : Ledger duties j)
    (hj : j = later ++ earlier) (hc : collections earlier ≤ c) : begun earlier c = [] := by
  rw [List.eq_nil_iff_forall_not_mem]
  intro d hd
  obtain ⟨between, before, hsplit⟩ := List.append_of_mem (Journal.mem_begun.1 hd)
  have hlt := h.after (later ++ between) c d before (by rw [hj, hsplit, List.append_assoc])
  have hle := Journal.collections_le_append (between ++ [.running c d]) before
  rw [List.append_assoc, List.singleton_append, ← hsplit] at hle
  omega

theorem leftOf_eq_nil (h : Ledger duties j) (hc : collections j ≤ c) : leftOf duties c = [] := by
  rw [leftOf, List.flatMap_eq_nil_iff]
  intro duty hduty
  have hlt := h.known duty hduty
  rw [if_neg (by omega)]

/-- What tells of no collection and of no begun task does not matter. -/
theorem append (h : Ledger duties j)
    (hn : ∀ n ∈ ns, n.isCollected = false ∧ n.isRunning = false) : Ledger duties (ns ++ j) := by
  have hcoll := Journal.collections_append (j := j) fun n hm => (hn n hm).1
  refine ⟨fun later calendar now due earlier hj => ?_, fun later c d earlier hj => ?_,
    fun duty hduty => ?_⟩
  · obtain ⟨later', -, hj'⟩ | ⟨rest, hns, -⟩ := Journal.split_append hj
    · rw [Journal.begun_append fun n hm => (hn n hm).2]
      exact h.balance later' calendar now due earlier hj'
    · have hm := (hn (.collected calendar now due) (by simp [hns])).1
      cases hm
  · obtain ⟨later', -, hj'⟩ | ⟨rest, hns, -⟩ := Journal.split_append hj
    · exact h.after later' c d earlier hj'
    · have hm := (hn (.running c d) (by simp [hns])).2
      cases hm
  · rw [hcoll]
    exact h.known duty hduty

theorem cons {n : Notice κ} (h : Ledger duties j) (hc : n.isCollected = false)
    (hr : n.isRunning = false) : Ledger duties (n :: j) :=
  @append κ duties j [n] h (by simp [hc, hr])

/-- What is collected becomes a duty. -/
theorem collect (h : Ledger duties j) (calendar : Calendar) (now : UInt64)
    (due : List (Deferred κ)) :
    Ledger (⟨collections j, due⟩ :: duties) (.collected calendar now due :: j) := by
  have hbegun : ∀ c, begun (.collected calendar now due :: j) c = begun j c := fun c =>
    Journal.begun_cons rfl
  refine ⟨fun later calendar' now' due' earlier hj => ?_, fun later c d earlier hj => ?_,
    fun duty hduty => ?_⟩
  · rw [hbegun]
    obtain ⟨-, hnew⟩ | ⟨later, rfl, hold⟩ := List.cons_eq_append_iff.1 hj
    · cases hnew
      have hleft : leftOf (⟨collections j, due⟩ :: duties) (collections j) =
          due ++ leftOf duties (collections j) := by simp [leftOf]
      rw [hleft, h.begun_eq_nil (List.nil_append j).symm (Nat.le_refl _),
        h.leftOf_eq_nil (Nat.le_refl _)]
      simp
    · -- an older collection has a smaller number, so the new duty is none of its tasks
      have hlt : collections earlier < collections j := by
        have hle := Journal.collections_le_append later (.collected calendar' now' due' :: earlier)
        rw [← hold, Journal.collections_cons] at hle
        simp only [Notice.isCollected, if_true] at hle
        omega
      have hleft : leftOf (⟨collections j, due⟩ :: duties) (collections earlier) =
          leftOf duties (collections earlier) := by simp [leftOf, Nat.ne_of_gt hlt]
      rw [hleft]
      exact h.balance later calendar' now' due' earlier hold
  · obtain ⟨-, hnew⟩ | ⟨later, rfl, hold⟩ := List.cons_eq_append_iff.1 hj
    · cases hnew
    · exact h.after later c d earlier hold
  · rw [Journal.collections_cons]
    simp only [Notice.isCollected, if_true]
    obtain rfl | hduty := List.mem_cons.1 hduty
    · exact Nat.lt_succ_self _
    · exact Nat.lt_succ_of_lt (h.known duty hduty)

/-- A task of the innermost duty is begun. -/
theorem begin (h : Ledger (⟨c, d :: left⟩ :: duties) j) :
    Ledger (⟨c, left⟩ :: duties) (.running c d :: j) := by
  have hcoll : collections (.running c d :: j) = collections j := Journal.collections_cons _
  have hc : c < collections j := h.known _ List.mem_cons_self
  refine ⟨fun later calendar now due earlier hj => ?_, fun later i d' earlier hj => ?_,
    fun duty hduty => ?_⟩
  · obtain ⟨-, hnew⟩ | ⟨later, rfl, hold⟩ := List.cons_eq_append_iff.1 hj
    · cases hnew
    · rw [← h.balance later calendar now due earlier hold, Journal.begun_running]
      by_cases hc : c = collections earlier <;> simp [leftOf, hc]
  · obtain ⟨-, hnew⟩ | ⟨later, rfl, hold⟩ := List.cons_eq_append_iff.1 hj
    · cases hnew
      exact hc
    · exact h.after later i d' earlier hold
  · rw [hcoll]
    obtain rfl | hduty := List.mem_cons.1 hduty
    · exact hc
    · exact h.known duty (List.mem_cons_of_mem _ hduty)

theorem finish (h : Ledger (⟨c, []⟩ :: duties) j) : Ledger duties j where
  balance later calendar now due earlier hj := by
    have hb := h.balance later calendar now due earlier hj
    simpa [leftOf] using hb
  after := h.after
  known duty hduty := h.known duty (List.mem_cons_of_mem _ hduty)

/-- Every passage keeps the ledger. -/
theorem passage {m m' : List (Duty κ) × Session κ σ} (hp : Passage m m')
    (h : Ledger m.1 m.2.journal) : Ledger m'.1 m'.2.journal := by
  cases hp with
  | calm hcalm =>
    obtain ⟨ns, hj, hn⟩ := hcalm.journal
    rw [hj]
    refine h.append fun n hm => ?_
    have hother := hn n hm
    cases n with
    | scheduled | collected | running => cases hother
    | _ => exact ⟨rfl, rfl⟩
  | schedule | scheduleRounds =>
    exact h.cons rfl rfl
  | collect k => exact h.collect _ _ _
  | begin => exact h.begin
  | finish => exact h.finish

theorem passages {m m' : List (Duty κ) × Session κ σ} (hp : Passages m m')
    (h : Ledger m.1 m.2.journal) : Ledger m'.1 m'.2.journal := by
  induction hp with
  | refl => exact h
  | tail _ hp ih => exact ih.passage hp

end Ledger

end Encounter
