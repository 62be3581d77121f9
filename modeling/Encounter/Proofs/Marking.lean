import Encounter.Proofs.Pacing
import Encounter.Proofs.Placement
import Encounter.Proofs.Storing

/-!
# The mark of a link

For one link of one trigger, `Session.Marked` says that the journal is lawful and that the trigger,
when it is on the shelf, bears the mark of the last recorded fire. Most of what happens spares the
link (`Session.Spares`), and so keeps it marked; a change does as long as it does not rewrite the
mark (`Session.Marked.change`). While its trigger is firing (`Session.Firing`) the link is asked and
its fires are written down.
-/

set_option autoImplicit false

namespace Encounter

open Journal

/-! ## Changes -/

namespace Change

variable {κ α : Type} {e : Engine κ} {id : TriggerId} {place : Nat}

/-- Does the change leave the mark of a link to its fires? -/
def KeepsMark (id : TriggerId) (place : Nat) : Change κ α → Prop
  | .editTrigger i f => i = id → ∀ t, (f t).mark place = t.mark place
  | _ => True

/-- A trigger that is on the shelf after a change was stored by it, or was there with the same
mark. -/
theorem mark_apply (c : Change κ α) (hk : c.KeepsMark id place) {t : Trigger κ}
    (h : (c.apply e).2.shelf.get? id = some t) : id ∈ c.stored e ∨
      ∃ t₀, e.shelf.get? id = some t₀ ∧ t.mark place = t₀.mark place := by
  rw [Shelf.get?_eq_some] at h
  rcases c.slot_cases e id with ⟨hin, -⟩ | ⟨-, hid | hid | ⟨hr, t₀, t', ht₀, ht'⟩⟩
  · exact .inl hin
  · exact .inr ⟨t, Shelf.get?_eq_some.2 (hid ▸ h), rfl⟩
  · cases h.symm.trans hid
  · refine .inr ⟨t₀, Shelf.get?_eq_some.2 ht₀, ?_⟩
    cases c with
    | editTrigger i f =>
      simp only [remarks] at hr
      split at hr
      · cases List.mem_singleton.1 hr
        have hshelf : (e.shelf.modify id f).slots[id]? = some (some t) := h
        rw [Shelf.slots_modify, if_pos rfl, ht₀] at hshelf
        cases hshelf
        exact hk rfl t₀
      · cases hr
    | _ => simp [remarks] at hr

/-- No change tells of fires, or of a turn. -/
theorem spares_notices (c : Change κ α) (id : TriggerId) (place : Nat) {e' : Engine κ}
    {n : Notice κ} (hn : n ∈ c.notices e e') :
    n.concerns id place = false ∧ isTurn n = false := by
  simp only [notices, List.mem_append, List.mem_map] at hn
  obtain ⟨i, -, rfl⟩ | ⟨i, -, rfl⟩ | hn := hn
  · exact ⟨rfl, rfl⟩
  · exact ⟨rfl, rfl⟩
  · cases c with
    | dequeue =>
      rw [remarks, Option.mem_toList, Option.map_eq_some_iff] at hn
      obtain ⟨_, -, rfl⟩ := hn
      exact ⟨rfl, rfl⟩
    | editTrigger | removeHandler =>
      simp only [remarks, List.mem_ite_nil_right, List.mem_singleton] at hn
      exact hn.2 ▸ ⟨rfl, rfl⟩
    | addHandler | schedule | scheduleRounds | enqueue =>
      exact List.mem_singleton.1 hn ▸ ⟨rfl, rfl⟩
    | _ => cases hn

end Change

/-- The operations that leave the mark of a link to its fires. -/
def Licence.keepsMark {κ σ : Type} (id : TriggerId) (place : Nat) : Licence κ σ
  | _, .change c => c.KeepsMark id place
  | _, _ => True

/-! ## Sessions -/

namespace Journal

variable {κ σ : Type} {test : κ → Payload → σ → Bool × σ} {world : WorldId} {id : TriggerId}
  {place : Nat} {j ns : List (Notice κ)}

theorem Lawful.append (h : Lawful test world id place j)
    (hn : ∀ n ∈ ns, n.concerns id place = false) : Lawful test world id place (ns ++ j) := by
  induction ns with
  | nil => exact h
  | cons n ns ih =>
    rw [List.forall_mem_cons] at hn
    exact .other hn.1 (ih hn.2)

theorem lastFire_reacted (turn : Option UInt64) :
    lastFire id place (.reacted id place turn :: j) = turn.or (lastFire id place j) := by
  cases turn <;> simp [lastFire, brought, recorded, firings]

theorem turns_append (hn : ∀ n ∈ ns, isTurn n = false) : turns (ns ++ j) = turns j := by
  have hnone : ns.countP isTurn = 0 := List.countP_eq_zero.2 fun n hm => by simp [hn n hm]
  rw [turns, List.countP_append, hnone, Nat.zero_add, turns]

end Journal

/-- What is true of a link and its trigger at any time. -/
structure Session.Marked {κ σ : Type} (test : κ → Payload → σ → Bool × σ) (world : WorldId)
    (id : TriggerId) (place : Nat) (s : Session κ σ) : Prop where
  home : s.engine.world.id = world
  clock : s.engine.clock.turn = .ofNat (turns s.journal)
  slot : s.engine.shelf.contains id = true → id.raw < s.engine.shelf.nextId
  fired : firings id s.journal ≠ [] → id.raw < s.engine.shelf.nextId
  /-- Once it has fired, the trigger on the shelf bears the mark of the last fire. -/
  shelved : ∀ t, s.engine.shelf.get? id = some t → firings id s.journal ≠ [] →
    t.mark place = lastFire id place s.journal
  lawful : Lawful test world id place s.journal

/-- Nothing happens to the link or its trigger, and no turn is gone to. -/
structure Session.Spares {κ σ : Type} (id : TriggerId) (place : Nat) (s s' : Session κ σ) :
    Prop where
  world : s'.engine.world.id = s.engine.world.id
  turn : s'.engine.clock.turn = s.engine.clock.turn
  nextId : s'.engine.shelf.nextId = s.engine.shelf.nextId
  slot : s'.engine.shelf.slots[id]? = s.engine.shelf.slots[id]?
  journal : ∃ ns, s'.journal = ns ++ s.journal ∧
    ∀ n ∈ ns, n.concerns id place = false ∧ isTurn n = false

/-- While the trigger is firing it stays off the shelf, and nothing is told of the link. -/
def Session.Leaves {κ σ : Type} (id : TriggerId) (place : Nat) (s s' : Session κ σ) : Prop :=
  s.engine.shelf.get? id = none → firings id s.journal ≠ [] →
    s'.engine.shelf.get? id = none ∧
      ∃ ns, s'.journal = ns ++ s.journal ∧ ∀ n ∈ ns, n.concerns id place = false

namespace Session

variable {κ σ : Type} {test : κ → Payload → σ → Bool × σ} {world : WorldId} {id : TriggerId}
  {place : Nat} {s s' s'' : Session κ σ}

theorem Spares.pay (s : Session κ σ) (budget : Nat) : s.Spares id place { s with budget } :=
  ⟨rfl, rfl, rfl, rfl, [], rfl, List.forall_mem_nil _⟩

theorem Spares.refl (s : Session κ σ) : s.Spares id place s := .pay s s.budget

theorem Spares.note (s : Session κ σ) {n : Notice κ} (hn : n.concerns id place = false)
    (hturn : isTurn n = false) : s.Spares id place { s with journal := n :: s.journal } :=
  ⟨rfl, rfl, rfl, rfl, [n], rfl, List.forall_mem_singleton.2 ⟨hn, hturn⟩⟩

theorem Spares.leaves (h : s.Spares id place s') : s.Leaves id place s' := fun hout _ => by
  obtain ⟨ns, hj, hn⟩ := h.journal
  rw [Shelf.get?_eq, h.slot, ← Shelf.get?_eq]
  exact ⟨hout, ns, hj, fun n hm => (hn n hm).1⟩

theorem Leaves.trans (h : s.Leaves id place s') (h' : s'.Leaves id place s'') :
    s.Leaves id place s'' := fun hout hfired => by
  obtain ⟨hout', ns, hj, hn⟩ := h hout hfired
  have hfired' : firings id s'.journal ≠ [] := by rwa [hj, firings_append hn]
  obtain ⟨hout'', ns', hj', hn'⟩ := h' hout' hfired'
  refine ⟨hout'', ns' ++ ns, by rw [hj', hj, List.append_assoc], fun n hm => ?_⟩
  exact (List.mem_append.1 hm).elim (hn' n) (hn n)

/-- The trigger, taken off the shelf as `t`, is firing. -/
structure Firing (test : κ → Payload → σ → Bool × σ) (world : WorldId) (id : TriggerId)
    (place : Nat) (t : Trigger κ) (s : Session κ σ) : Prop
    extends s.Marked test world id place where
  out : s.engine.shelf.get? id = none
  taken : t ∈ firings id s.journal

theorem Firing.leaves {t : Trigger κ} (h : s.Firing test world id place t)
    (hs : s'.Marked test world id place) (hl : s.Leaves id place s') :
    s'.Firing test world id place t ∧
      ∃ ns, s'.journal = ns ++ s.journal ∧ ∀ n ∈ ns, n.concerns id place = false := by
  obtain ⟨hout, ns, hj, hn⟩ := hl h.out (List.ne_nil_of_mem h.taken)
  exact ⟨⟨hs, hout, by rw [hj, firings_append hn]; exact h.taken⟩, ns, hj, hn⟩

namespace Marked

theorem spares (hs : s.Marked test world id place) (h : s.Spares id place s') :
    s'.Marked test world id place := by
  obtain ⟨ns, hj, hn⟩ := h.journal
  have hconcern : ∀ n ∈ ns, n.concerns id place = false := fun n hm => (hn n hm).1
  refine ⟨h.world.trans hs.home, ?_, ?_, ?_, ?_, ?_⟩
  · rw [h.turn, hj, turns_append fun n hm => (hn n hm).2]
    exact hs.clock
  · rw [Shelf.contains_eq, h.slot, ← Shelf.contains_eq, h.nextId]
    exact hs.slot
  · rw [hj, firings_append hconcern, h.nextId]
    exact hs.fired
  · rw [Shelf.get?_eq, h.slot, ← Shelf.get?_eq, hj, firings_append hconcern,
      lastFire_append hconcern]
    exact hs.shelved
  · rw [hj]
    exact hs.lawful.append hconcern

/-- What has fired got its number before, so no change stores anything under it. -/
theorem not_stored {α : Type} (hs : s.Marked test world id place) {c : Change κ α}
    (hfit : c.overflows s.engine = false) (hfired : firings id s.journal ≠ []) :
    id ∉ c.stored s.engine := fun hnew =>
  absurd ((c.stored_range hfit).2 id hnew).1 (UInt32.not_le.2 (hs.fired hfired))

/-- A change that leaves the mark to the fires keeps the link marked. -/
theorem change {α : Type} (hs : s.Marked test world id place) (c : Change κ α)
    (hk : c.KeepsMark id place) (hend : c.isEndless s.engine = false)
    (hfit : c.overflows s.engine = false) :
    Session.Marked test world id place { s with
      engine := (c.apply s.engine).2
      journal := c.notices s.engine (c.apply s.engine).2 ++ s.journal } := by
  have hconcern : ∀ n ∈ c.notices s.engine (c.apply s.engine).2, n.concerns id place = false :=
    fun n hn => (c.spares_notices id place hn).1
  obtain ⟨hnext, hstored⟩ := c.stored_range hfit
  have hold : ∀ {i : UInt32}, i < s.engine.shelf.nextId → i < (c.apply s.engine).2.shelf.nextId :=
    fun h => UInt32.lt_of_lt_of_le h hnext
  refine ⟨(c.world_id hend).trans hs.home, ?_, fun hin => ?_, fun hfired => ?_,
    fun t ht hfired => ?_, hs.lawful.append hconcern⟩
  · rw [turns_append fun n hn => (c.spares_notices id place hn).2]
    exact c.turn_apply.trans hs.clock
  · rw [Shelf.contains_eq] at hin
    rcases c.slot_cases s.engine id with ⟨hnew, -⟩ | ⟨-, hid | hid | ⟨-, t, t', ht, -⟩⟩
    · exact (hstored id hnew).2
    · rw [hid, ← Shelf.contains_eq] at hin
      exact hold (hs.slot hin)
    · rw [hid] at hin
      cases hin
    · exact hold (hs.slot (Shelf.contains_of_get? (Shelf.get?_eq_some.2 ht)))
  · rw [firings_append hconcern] at hfired
    exact hold (hs.fired hfired)
  · rw [firings_append hconcern] at hfired
    rw [lastFire_append hconcern]
    rcases c.mark_apply hk ht with hnew | ⟨t₀, ht₀, hmark⟩
    · exact absurd hnew (hs.not_stored hfit hfired)
    · exact hmark.trans (hs.shelved t₀ ht₀ hfired)

theorem change_leaves {α : Type} (hs : s.Marked test world id place) (c : Change κ α)
    (hk : c.KeepsMark id place) (hfit : c.overflows s.engine = false) :
    s.Leaves id place { s with
      engine := (c.apply s.engine).2
      journal := c.notices s.engine (c.apply s.engine).2 ++ s.journal } := fun hout hfired => by
  refine ⟨?_, _, rfl, fun n hn => (c.spares_notices id place hn).1⟩
  cases h : (c.apply s.engine).2.shelf.get? id with
  | none => rfl
  | some t =>
    rcases c.mark_apply hk h with hnew | ⟨t₀, ht₀, -⟩
    · exact absurd hnew (hs.not_stored hfit hfired)
    · cases hout.symm.trans ht₀

/-- The trigger is taken off the shelf. -/
theorem checkOut {t : Trigger κ} (hs : s.Marked test world id place)
    (h : s.engine.shelf.get? id = some t) : Session.Marked test world id place { s with
      engine := { s.engine with shelf := (s.engine.shelf.checkOut id).2 }
      journal := .firing id t :: s.journal } where
  home := hs.home
  clock := hs.clock
  slot hin := by
    rw [Shelf.contains_checkOut h] at hin
    rw [Shelf.nextId_checkOut]
    exact hs.slot hin
  fired _ := by
    rw [Shelf.nextId_checkOut]
    exact hs.slot (Shelf.contains_of_get? h)
  shelved t' ht' := by
    cases (Shelf.get?_checkOut h).symm.trans ht'
  lawful := .firing (hs.shelved t h) hs.lawful

/-- The trigger is put back with the mark that its fires have left. -/
theorem checkIn {t : Trigger κ} (hs : s.Marked test world id place)
    (hout : s.engine.shelf.get? id = none) (ht : t.mark place = lastFire id place s.journal) :
    Session.Marked test world id place { s with
      engine := { s.engine with shelf := s.engine.shelf.checkIn id t }
      journal := .fired id t :: s.journal } where
  home := hs.home
  clock := hs.clock
  slot hin := by
    rw [Shelf.contains_checkIn] at hin
    rw [Shelf.nextId_checkIn]
    exact hs.slot hin
  fired h := by
    rw [Shelf.nextId_checkIn]
    exact hs.fired h
  shelved t' ht' _ := by
    rw [Shelf.get?_eq_some, Shelf.slots_checkIn] at ht'
    split at ht'
    · cases ht'
      exact ht
    · rw [Shelf.get?_eq_some.2 ht'] at hout
      cases hout
  lawful := .other rfl hs.lawful

theorem turnFor_eq (hs : s.Marked test world id place) (p : Payload) :
    s.engine.turnFor p.world = turnAt world p s.journal := by
  rw [Engine.turnFor, turnAt, hs.home, hs.clock]

/-- The link is asked. -/
theorem asked {t : Trigger κ} {l : Link κ} {p : Payload} {answer : Answer}
    (hs : s.Marked test world id place) (ht : t ∈ firings id s.journal)
    (hl : t.links[place]? = some l) (hmark : l.lastFired = lastFire id place s.journal)
    (hanswer : l.Answers test p (turnAt world p s.journal) answer) :
    Session.Marked test world id place { s with
      journal := .asked id place p (turnAt world p s.journal) answer :: s.journal } where
  home := hs.home
  clock := hs.clock
  slot := hs.slot
  fired := hs.fired
  shelved := hs.shelved
  lawful := .asked ht hl hmark hanswer hs.lawful

/-- The fire of the link is written down. -/
theorem reacted {p : Payload} {turn : Option UInt64} (hs : s.Marked test world id place)
    (hout : s.engine.shelf.get? id = none)
    (hasked : s.journal.find? (·.concerns id place) = some (.asked id place p turn .willing)) :
    Session.Marked test world id place { s with
      journal := .reacted id place turn :: s.journal } where
  home := hs.home
  clock := hs.clock
  slot := hs.slot
  fired := hs.fired
  shelved t' ht' := by
    rw [show s.engine.shelf.get? id = some t' from ht'] at hout
    cases hout
  lawful := .reacted hasked hs.lawful

/-- The clock goes to the next turn, and that is written down. -/
theorem tick {due : List (Deferred κ)} {now : UInt64} (hs : s.Marked test world id place) :
    Session.Marked test world id place { s with
      engine := { s.engine with clock := s.engine.clock.advance.2 }
      journal := .collected .turns now due :: s.journal } where
  home := hs.home
  clock := by
    show s.engine.clock.turn + 1 = _
    rw [turns_cons, hs.clock]
    exact (UInt64.ofNat_add _ 1).symm
  slot := hs.slot
  fired := hs.fired
  shelved := hs.shelved
  lawful := .other rfl hs.lawful

end Marked

namespace Firing

variable {t : Trigger κ} {k : Nat}

/-- A link in the chain is asked. -/
theorem asked {l : Link κ} {p : Payload} {answer : Answer} (hs : s.Firing test world id place t)
    (hl : t.links[k]? = some l)
    (hmark : k = place → l.lastFired = lastFire id place s.journal)
    (hanswer : l.Answers test p (turnAt world p s.journal) answer) :
    Session.Firing test world id place t { s with
      journal := .asked id k p (turnAt world p s.journal) answer :: s.journal } := by
  refine ⟨?_, hs.out, hs.taken⟩
  by_cases hk : k = place
  · subst hk
    exact hs.toMarked.asked hs.taken hl (hmark rfl) hanswer
  · exact hs.spares (.note s (by simp [Notice.concerns, hk]) rfl)

/-- The fire of a link in the chain is written down. -/
theorem reacted {p : Payload} {turn : Option UInt64} (hs : s.Firing test world id place t)
    (hasked : k = place → s.journal.find? (·.concerns id place) =
      some (.asked id place p turn .willing)) :
    Session.Firing test world id place t { s with journal := .reacted id k turn :: s.journal } ∧
      lastFire id place (.reacted id k turn :: s.journal) =
        if k = place then turn.or (lastFire id place s.journal)
        else lastFire id place s.journal := by
  by_cases hk : k = place
  · subst hk
    rw [if_pos rfl]
    exact ⟨⟨hs.toMarked.reacted hs.out (hasked rfl), hs.out, hs.taken⟩, lastFire_reacted turn⟩
  · have hn : Notice.concerns id place (.reacted id k turn : Notice κ) = false := by
      simp [Notice.concerns, hk]
    have hlast : lastFire id place ([.reacted id k turn] ++ s.journal) =
        lastFire id place s.journal := lastFire_append (List.forall_mem_singleton.2 hn)
    rw [if_neg hk]
    exact ⟨⟨hs.spares (.note s hn rfl), hs.out, hs.taken⟩, hlast⟩

end Firing

end Session

end Encounter
