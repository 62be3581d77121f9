import Encounter.Proofs.Punctuality
import Mathlib.Data.List.Chain

/-!
# What a journal tells of a cooldown

`Journal.Lawful` says what a journal may tell of one link of one trigger: which turn the link reads
when it is asked, what it answers, that a recorded fire answers the last question, and that the
trigger bears the mark of the last fire whenever it fires again. That is enough to tell how far the
recorded fires are apart (`Lawful.spaced`), to what a refusal is owed (`Lawful.owed`), and, for a
link that always reacts when it may and is asked at each turn, at which turns it fires
(`Lawful.periodic`).
-/

set_option autoImplicit false

namespace Encounter

/-! ## Links -/

namespace Link

variable {κ σ : Type}

/-- The least number of turns between two fires; without a cooldown there is none. -/
def pause (l : Link κ) : Nat :=
  (l.cooldown.map UInt64.toNat).getD 0

theorem onCooldown_iff {l : Link κ} {turn : UInt64} : l.onCooldown turn = true ↔
    ∃ last, l.lastFired = some last ∧ turn.toNat - last.toNat < l.pause := by
  unfold onCooldown pause
  cases l.cooldown <;> cases l.lastFired <;> simp

/-- What a link answers to a payload at a turn, its condition being evaluated with some dice and in
some state of the host. A link on cooldown does not evaluate it. -/
def Answers (test : κ → Payload → σ → Bool × σ) (l : Link κ) (p : Payload) (turn : Option UInt64) :
    Answer → Prop
  | .resting => turn.any l.onCooldown = true
  | .declined => turn.any l.onCooldown = false ∧ ∃ r state, (l.admits test p r state).1 = false
  | .willing => turn.any l.onCooldown = false ∧ ∃ r state, (l.admits test p r state).1 = true

theorem Answers.resting_iff {test : κ → Payload → σ → Bool × σ} {l : Link κ} {p : Payload}
    {turn : Option UInt64} {answer : Answer} (h : l.Answers test p turn answer) :
    answer = .resting ↔ turn.any l.onCooldown = true := by
  cases answer with
  | resting => exact iff_of_true rfl h
  | declined | willing => exact iff_of_false (by simp) (by simp [h.1])

theorem admits_always {test : κ → Payload → σ → Bool × σ} {l : Link κ}
    (hl : l.condition = .always) (p : Payload) (r : Roller) (state : σ) :
    (l.admits test p r state).1 = true := by
  simp [admits, isSavingThrow, hl, Condition.evaluate, Condition.isSkillCheck]

end Link

/-- The turn of the last recorded fire of a link in the chain. -/
def Trigger.mark {κ : Type} (t : Trigger κ) (place : Nat) : Option UInt64 :=
  t.links[place]?.bind (·.lastFired)

/-- Does the notice tell of a fire of the trigger, or of what its link at a place does in one? -/
def Notice.concerns {κ : Type} (id : TriggerId) (place : Nat) : Notice κ → Bool
  | .firing i _ => i = id
  | .asked i k .. => i = id && k = place
  | .reacted i k _ => i = id && k = place
  | _ => false

/-- Does the notice tell that the link was asked? -/
def Notice.asks {κ : Type} (id : TriggerId) (place : Nat) : Notice κ → Bool
  | .asked i k .. => i = id && k = place
  | _ => false

namespace Journal

variable {κ σ : Type}

/-! ## What is read off a journal -/

section
variable (id : TriggerId) (place : Nat) (j : List (Notice κ))

/-- The trigger as it was each time that it was taken off the shelf to fire, newest first. -/
def firings : List (Trigger κ) :=
  j.filterMap fun
    | .firing i t => if i = id then some t else none
    | _ => none

/-- The turns for which fires of the link were recorded, newest first. -/
def recorded : List UInt64 :=
  j.filterMap fun
    | .reacted i k turn => if i = id ∧ k = place then turn else none
    | _ => none

/-- The turns at which the link was asked about payloads of the world, and its answers, newest
first. -/
def attempts : List (UInt64 × Answer) :=
  j.filterMap fun
    | .asked i k _ turn answer => if i = id ∧ k = place then turn.map (·, answer) else none
    | _ => none

/-- The mark that the link brought along: the one that it bore when its trigger first came to fire
here. -/
def brought : Option UInt64 :=
  (firings id j).getLast?.bind (·.mark place)

/-- The turn of the last recorded fire of the link. Before the first one it is the mark that the
link brought along. -/
def lastFire : Option UInt64 :=
  (recorded id place j).head?.or (brought id place j)

end

/-- The turns at which a link began to react, of those at which it was asked. -/
def reactions (as : List (UInt64 × Answer)) : List UInt64 :=
  as.filterMap fun a => if a.2 = .willing then some a.1 else none

/-- The turn that a link reads for a payload: none unless it names the world, and then the turn of
the clock, which the journal tells. -/
def turnAt (world : WorldId) (p : Payload) (j : List (Notice κ)) : Option UInt64 :=
  if p.world = some world then some (.ofNat (turns j)) else none

section
variable {id : TriggerId} {place : Nat} {j ns : List (Notice κ)} {n : Notice κ}

theorem filterMap_append_of_none {β : Type} {f : Notice κ → Option β}
    (hf : ∀ n ∈ ns, f n = none) : (ns ++ j).filterMap f = j.filterMap f := by
  rw [List.filterMap_append, List.filterMap_eq_nil_iff.2 hf, List.nil_append]

theorem firings_append_of_ne (hn : ∀ n ∈ ns, ∀ t, n ≠ .firing id t) :
    firings id (ns ++ j) = firings id j :=
  filterMap_append_of_none fun n hm => by
    cases n with
    | firing i t => exact if_neg fun hi => hn _ hm t (by rw [hi])
    | _ => rfl

theorem firings_append (hn : ∀ n ∈ ns, n.concerns id place = false) :
    firings id (ns ++ j) = firings id j :=
  firings_append_of_ne fun n hm t hf => by simpa [hf, Notice.concerns] using hn n hm

theorem recorded_append (hn : ∀ n ∈ ns, n.concerns id place = false) :
    recorded id place (ns ++ j) = recorded id place j :=
  filterMap_append_of_none fun n hm => by
    have hn := hn n hm
    cases n <;> simp_all [Notice.concerns]

theorem lastFire_append (hn : ∀ n ∈ ns, n.concerns id place = false) :
    lastFire id place (ns ++ j) = lastFire id place j := by
  rw [lastFire, brought, recorded_append hn, firings_append hn, ← brought, ← lastFire]

theorem mem_firings_append {t : Trigger κ} (later : List (Notice κ)) (h : t ∈ firings id j) :
    t ∈ firings id (later ++ j) := by
  rw [firings, List.filterMap_append]
  exact List.mem_append_right _ h

/-- What a link brought along is known once its trigger has come to fire. -/
theorem brought_append (later : List (Notice κ)) (h : firings id j ≠ []) :
    brought id place (later ++ j) = brought id place j := by
  have hf : firings id (later ++ j) = firings id later ++ firings id j := List.filterMap_append
  rw [brought, hf, List.getLast?_append_of_ne_nil _ h, brought]

/-- Whatever is firing was taken off the shelf. -/
theorem mem_firings {f : Fire κ} (h : f ∈ fires j) : f.trigger ∈ firings f.id j := by
  induction j generalizing f with
  | nil => cases h
  | cons n j ih =>
    have hold : ∀ g ∈ fires j, g.trigger ∈ firings g.id (n :: j) := fun g hg =>
      mem_firings_append [n] (ih hg)
    cases n with
    | firing i t =>
      rcases List.mem_cons.1 h with rfl | h
      · simp [firings]
      · exact hold f h
    | fired => exact hold f (List.mem_of_mem_tail h)
    | dropped =>
      obtain ⟨g, hg, rfl⟩ := List.mem_map.1 h
      exact hold g hg
    | _ => exact hold f h

theorem turnAt_eq_some {world : WorldId} {p : Payload} {now : UInt64} :
    turnAt world p j = some now ↔ p.world = some world ∧ now = .ofNat (turns j) := by
  unfold turnAt
  split <;> simp_all [eq_comm]

/-- What a notice adds to the recorded fires. -/
theorem recorded_cons (id : TriggerId) (place : Nat) (n : Notice κ) (j : List (Notice κ)) :
    recorded id place (n :: j) = recorded id place j ∨ ∃ now, n = .reacted id place (some now) ∧
      recorded id place (n :: j) = now :: recorded id place j := by
  cases n with
  | reacted i k turn =>
    by_cases hlink : i = id ∧ k = place
    · obtain ⟨rfl, rfl⟩ := hlink
      cases turn with
      | none => exact .inl (by simp [recorded])
      | some now => exact .inr ⟨now, rfl, by simp [recorded]⟩
    · exact .inl (by simp [recorded, hlink])
  | _ => exact .inl rfl

end

/-! ## Lawful journals -/

/-- What a journal may tell of one link. -/
inductive Lawful (test : κ → Payload → σ → Bool × σ) (world : WorldId) (id : TriggerId)
    (place : Nat) : List (Notice κ) → Prop
  | nil : Lawful test world id place []
  | other {n : Notice κ} {j : List (Notice κ)} (hn : n.concerns id place = false)
      (h : Lawful test world id place j) : Lawful test world id place (n :: j)
  /-- A trigger that fires again bears the mark that the fires before have left. -/
  | firing {t : Trigger κ} {j : List (Notice κ)}
      (hmark : firings id j ≠ [] → t.mark place = lastFire id place j)
      (h : Lawful test world id place j) : Lawful test world id place (.firing id t :: j)
  /-- The link reads the turn and answers as it was when the trigger was taken off the shelf. -/
  | asked {p : Payload} {t : Trigger κ} {l : Link κ} {answer : Answer} {j : List (Notice κ)}
      (ht : t ∈ firings id j) (hl : t.links[place]? = some l)
      (hmark : l.lastFired = lastFire id place j)
      (hanswer : l.Answers test p (turnAt world p j) answer)
      (h : Lawful test world id place j) :
      Lawful test world id place (.asked id place p (turnAt world p j) answer :: j)
  /-- A recorded fire answers the last question. -/
  | reacted {p : Payload} {turn : Option UInt64} {j : List (Notice κ)}
      (hasked : j.find? (·.concerns id place) = some (.asked id place p turn .willing))
      (h : Lawful test world id place j) : Lawful test world id place (.reacted id place turn :: j)

/-- Whenever the link was asked, all fires that it had begun before for payloads of the world were
recorded: none of its reactions has failed. -/
def Unfailing (id : TriggerId) (place : Nat) : List (Notice κ) → Prop
  | [] => True
  | n :: j => (n.asks id place = true → recorded id place j = reactions (attempts id place j)) ∧
      Unfailing id place j

instance decidableUnfailing (id : TriggerId) (place : Nat) :
    ∀ j : List (Notice κ), Decidable (Unfailing id place j)
  | [] => inferInstanceAs (Decidable True)
  | n :: j =>
    have := decidableUnfailing id place j
    inferInstanceAs (Decidable ((n.asks id place = true →
      recorded id place j = reactions (attempts id place j)) ∧ Unfailing id place j))

section
variable {test : κ → Payload → σ → Bool × σ} {world : WorldId} {id : TriggerId} {place : Nat}
  {j later earlier : List (Notice κ)} {p : Payload} {turn : Option UInt64} {answer : Answer}

theorem Lawful.of_append (h : Lawful test world id place (later ++ j)) :
    Lawful test world id place j := by
  induction later with
  | nil => exact h
  | cons n later ih => cases h with | _ => exact ih ‹_›

theorem Lawful.asked_inv (h : Lawful test world id place (.asked id place p turn answer :: j)) :
    turn = turnAt world p j ∧ ∃ t ∈ firings id j, ∃ l, t.links[place]? = some l ∧
      l.lastFired = lastFire id place j ∧ l.Answers test p turn answer := by
  cases h with
  | other hn => simp [Notice.concerns] at hn
  | asked ht hl hmark hanswer => exact ⟨rfl, _, ht, _, hl, hmark, hanswer⟩

/-- A fire was recorded for the turn that the link had read when it was last asked. -/
theorem Lawful.reacted_inv (h : Lawful test world id place (.reacted id place turn :: j)) :
    ∃ p between earlier, j = between ++ .asked id place p turn .willing :: earlier ∧
      ∀ n ∈ between, n.concerns id place = false := by
  cases h with
  | other hn => simp [Notice.concerns] at hn
  | reacted hasked =>
    obtain ⟨-, between, earlier, rfl, hbetween⟩ := List.find?_eq_some_iff_append.1 hasked
    exact ⟨_, between, earlier, rfl, by simpa using hbetween⟩

theorem Lawful.tail {n : Notice κ} (h : Lawful test world id place (n :: j)) :
    Lawful test world id place j :=
  @of_append κ σ test world id place j [n] h

/-- A fire is recorded for a turn that the link has read, and none was recorded since then. -/
theorem Lawful.reacted_since (h : Lawful test world id place (.reacted id place turn :: j)) :
    ∃ p between earlier, j = between ++ earlier ∧ turn = turnAt world p earlier ∧
      recorded id place j = recorded id place earlier := by
  obtain ⟨p, between, earlier, rfl, hbetween⟩ := h.reacted_inv
  exact ⟨p, between ++ [.asked id place p turn .willing], earlier, by simp,
    h.tail.of_append.asked_inv.1, recorded_append hbetween⟩

/-- The link whose fire is recorded was not on cooldown at that turn. -/
theorem Lawful.reacted_rested (h : Lawful test world id place (.reacted id place turn :: j)) :
    ∃ t ∈ firings id j, ∃ l, t.links[place]? = some l ∧ l.lastFired = lastFire id place j ∧
      turn.any l.onCooldown = false := by
  obtain ⟨p, between, earlier, rfl, hbetween⟩ := h.reacted_inv
  obtain ⟨-, t, ht, l, hl, hmark, hrested, -⟩ := h.tail.of_append.asked_inv
  rw [firings_append hbetween, lastFire_append hbetween]
  exact ⟨t, ht, l, hl, hmark, hrested⟩

/-- Before the trigger first fires no fire of the link is recorded. -/
theorem Lawful.recorded_eq_nil (h : Lawful test world id place j) (hj : firings id j = []) :
    recorded id place j = [] := by
  induction j with
  | nil => rfl
  | cons n j ih =>
    have hnone : ∀ t, t ∉ firings id j := fun t ht => by
      have ht := mem_firings_append [n] ht
      rw [List.singleton_append, hj] at ht
      cases ht
    obtain hsame | ⟨now, rfl, -⟩ := recorded_cons id place n j
    · rw [hsame]
      exact ih h.tail (List.eq_nil_iff_forall_not_mem.2 hnone)
    · obtain ⟨t, ht, -⟩ := h.reacted_rested
      exact absurd ht (hnone t)

/-- Whatever the trigger bears when it fires is the mark of the last fire. -/
theorem Lawful.lastFire_firing {t : Trigger κ}
    (h : Lawful test world id place (.firing id t :: j)) :
    lastFire id place (.firing id t :: j) = t.mark place := by
  have hr : recorded id place (.firing id t :: j) = recorded id place j := rfl
  have hf : firings id (.firing id t :: j) = t :: firings id j := by simp [firings]
  cases h with
  | other hn => simp [Notice.concerns] at hn
  | firing hmark h =>
    by_cases hfirst : firings id j = []
    · rw [lastFire, brought, hr, hf, h.recorded_eq_nil hfirst, hfirst]
      rfl
    · rw [hmark hfirst, lastFire, lastFire, brought, brought, hr, hf,
        List.getLast?_cons_of_ne_nil hfirst]

/-! ## How far fires are apart -/

theorem Lawful.recorded_le (h : Lawful test world id place j) :
    ∀ turn ∈ recorded id place j, turn.toNat ≤ turns j := by
  induction j with
  | nil => intro turn hturn; cases hturn
  | cons n j ih =>
    have hle := fun turn hturn => (ih h.tail turn hturn).trans (turns_le_append [n] j)
    obtain hsame | ⟨now, rfl, hmore⟩ := recorded_cons id place n j
    · rw [hsame]
      exact hle
    · rw [hmore, List.forall_mem_cons]
      refine ⟨?_, hle⟩
      obtain ⟨p, between, earlier, rfl, hturn, -⟩ := h.reacted_since
      obtain ⟨-, rfl⟩ := turnAt_eq_some.1 hturn.symm
      exact (Nat.mod_le _ _).trans (turns_le_append (_ :: between) earlier)

/-- Recorded fires are told of in the order of their turns, as long as the clock does not run
over. -/
theorem Lawful.ordered (h : Lawful test world id place j) (hj : turns j < UInt64.size) :
    (recorded id place j).Pairwise fun later earlier => earlier ≤ later := by
  induction j with
  | nil => exact .nil
  | cons n j ih =>
    have ih := ih h.tail (Nat.lt_of_le_of_lt (turns_le_append [n] j) hj)
    obtain hsame | ⟨now, rfl, hmore⟩ := recorded_cons id place n j
    · rwa [hsame]
    · rw [hmore, List.pairwise_cons]
      refine ⟨fun m hm => ?_, ih⟩
      obtain ⟨p, between, earlier, rfl, hturn, hr⟩ := h.reacted_since
      have hearlier : Lawful test world id place earlier := h.tail.of_append
      have hle := hearlier.recorded_le m (hr ▸ hm)
      obtain ⟨-, rfl⟩ := turnAt_eq_some.1 hturn.symm
      rw [UInt64.le_iff_toNat_le]
      refine hle.trans (Nat.le_of_eq (Nat.mod_eq_of_lt ?_).symm)
      exact Nat.lt_of_le_of_lt (turns_le_append (_ :: between) earlier) hj

/-- Any two recorded fires are at least as far apart as the cooldown says. -/
theorem Lawful.spaced {c : Nat} (h : Lawful test world id place j)
    (hc : ∀ t ∈ firings id j, ∀ l ∈ t.links[place]?, l.pause = c) :
    (recorded id place j).Pairwise fun later earlier => c ≤ later.toNat - earlier.toNat := by
  induction j with
  | nil => exact .nil
  | cons n j ih =>
    have hc : ∀ t ∈ firings id j, ∀ l ∈ t.links[place]?, l.pause = c := fun t ht =>
      hc t (mem_firings_append [n] ht)
    have ih := ih h.tail hc
    obtain hsame | ⟨now, rfl, hmore⟩ := recorded_cons id place n j
    · rwa [hsame]
    · rw [hmore, List.pairwise_cons]
      refine ⟨fun m hm => ?_, ih⟩
      obtain ⟨t, ht, l, hl, hmark, hrested⟩ := h.reacted_rested
      -- the link was not on cooldown, so the last of the fires before is far enough away
      have hlast : ∀ last ∈ (recorded id place j).head?, c ≤ now.toNat - last.toNat := by
        intro last hlast
        have hfired : l.lastFired = some last := by
          rw [hmark, lastFire, hlast]
          rfl
        rw [← Nat.not_lt, ← hc t ht l hl]
        intro hnear
        exact absurd (Link.onCooldown_iff.2 ⟨last, hfired, hnear⟩) (by simpa using hrested)
      cases hrec : recorded id place j with
      | nil => rw [hrec] at hm; cases hm
      | cons last before =>
        rw [hrec] at hm ih hlast
        have hfar := hlast last rfl
        rcases List.mem_cons.1 hm with rfl | hm
        · exact hfar
        · have hbefore := (List.pairwise_cons.1 ih).1 m hm
          omega

end

/-! ## At which turns a link fires -/

/-- What a notice adds to the attempts. -/
theorem attempts_cons (id : TriggerId) (place : Nat) (n : Notice κ) (j : List (Notice κ)) :
    attempts id place (n :: j) = attempts id place j ∨ ∃ p now answer,
      n = .asked id place p (some now) answer ∧
        attempts id place (n :: j) = (now, answer) :: attempts id place j := by
  cases n with
  | asked i k p turn answer =>
    by_cases hlink : i = id ∧ k = place
    · obtain ⟨rfl, rfl⟩ := hlink
      cases turn with
      | none => exact .inl (by simp [attempts])
      | some now => exact .inr ⟨p, now, answer, rfl, by simp [attempts]⟩
    · exact .inl (by simp [attempts, hlink])
  | _ => exact .inl rfl

theorem reactions_cons (now : UInt64) (answer : Answer) (as : List (UInt64 × Answer)) :
    reactions ((now, answer) :: as) =
      if answer = .willing then now :: reactions as else reactions as := by
  cases answer <;> rfl

/-- Each attempt comes one turn after the one before. -/
def TurnByTurn (as : List (UInt64 × Answer)) : Prop :=
  as.IsChain fun later earlier => later.1.toNat = earlier.1.toNat + 1

theorem TurnByTurn.lt {now : UInt64} {answer : Answer} {as : List (UInt64 × Answer)}
    (h : TurnByTurn ((now, answer) :: as)) : ∀ a ∈ as, a.1.toNat < now.toNat := by
  let R : UInt64 × Answer → UInt64 × Answer → Prop := fun later earlier =>
    earlier.1.toNat < later.1.toNat
  have : Trans R R R := ⟨fun h h' => Nat.lt_trans h' h⟩
  have hchain : ((now, answer) :: as).IsChain R :=
    List.IsChain.imp (fun a b (hab : a.1.toNat = b.1.toNat + 1) => Nat.lt_of_succ_le hab.ge) h
  exact (List.pairwise_cons.1 hchain.pairwise).1

/-- From the turn `first` on, reactions begin at every `d`-th turn. The last of them is less than
`d` turns away. -/
structure Periodic (d : Nat) (first : UInt64) (as : List (UInt64 × Answer)) : Prop where
  answers : ∀ a ∈ as, a.2 = .willing ↔
    first.toNat ≤ a.1.toNat ∧ (a.1.toNat - first.toNat) % d = 0
  last : ∃ newest older last, as = newest :: older ∧ (reactions as).head? = some last ∧
    first.toNat ≤ last.toNat ∧ (last.toNat - first.toNat) % d = 0 ∧
      last.toNat ≤ newest.1.toNat ∧ newest.1.toNat < last.toNat + d

theorem Periodic.first {d : Nat} {now : UInt64} {as : List (UInt64 × Answer)} (hd : 0 < d)
    (hnone : reactions as = []) (hlt : ∀ a ∈ as, a.1.toNat < now.toNat) :
    Periodic d now ((now, .willing) :: as) where
  answers a ha := by
    rcases List.mem_cons.1 ha with rfl | ha
    · simp
    · have hrefused : a.2 ≠ .willing := fun hw => by
        have hmem : a.1 ∈ reactions as := List.mem_filterMap.2 ⟨a, ha, by simp [hw]⟩
        rw [hnone] at hmem
        cases hmem
      have := hlt a ha
      exact iff_of_false hrefused fun h => by omega
  last := ⟨_, as, now, rfl, by simp [reactions_cons], Nat.le_refl _, by simp, Nat.le_refl _,
    Nat.lt_add_of_pos_right hd⟩

/-- A link that reacts when its last reaction is `c` turns ago keeps its period. -/
theorem Periodic.cons {c : Nat} {first now : UInt64} {answer : Answer} {as : List (UInt64 × Answer)}
    (h : Periodic (max c 1) first as) (hturn : TurnByTurn ((now, answer) :: as))
    (hanswer : ∀ last, (reactions as).head? = some last →
      (answer = .willing ↔ c ≤ now.toNat - last.toNat)) :
    Periodic (max c 1) first ((now, answer) :: as) := by
  obtain ⟨newest, older, last, rfl, hlast, hfirst, hphase, hle, hlt⟩ := h.last
  have hnow : now.toNat = newest.1.toNat + 1 := (List.isChain_cons_cons.1 hturn).1
  have hanswer := hanswer last hlast
  by_cases hdue : now.toNat = last.toNat + max c 1
  · -- a whole period is over
    have hw : answer = .willing := hanswer.2 (by omega)
    have hmod : (now.toNat - first.toNat) % max c 1 = 0 := by
      have heq : now.toNat - first.toNat = (last.toNat - first.toNat) + max c 1 := by omega
      rw [heq, Nat.add_mod_right, hphase]
    subst hw
    refine ⟨fun a ha => ?_, _, _, now, rfl, by simp [reactions_cons], by omega, hmod,
      Nat.le_refl _, by dsimp only; omega⟩
    rcases List.mem_cons.1 ha with rfl | ha
    · exact iff_of_true rfl ⟨by dsimp only; omega, hmod⟩
    · exact h.answers a ha
  · have hw : answer ≠ .willing := fun hw => by
      have := hanswer.1 hw
      omega
    have hmod : (now.toNat - first.toNat) % max c 1 ≠ 0 := by
      have heq : now.toNat - first.toNat = (last.toNat - first.toNat) +
          (now.toNat - last.toNat) := by omega
      have hpart : now.toNat - last.toNat < max c 1 := by omega
      rw [heq, Nat.add_mod, hphase, Nat.zero_add, Nat.mod_mod, Nat.mod_eq_of_lt hpart]
      omega
    refine ⟨fun a ha => ?_, _, _, last, rfl, by rw [reactions_cons, if_neg hw, hlast], hfirst,
      hphase, by dsimp only; omega, by dsimp only; omega⟩
    rcases List.mem_cons.1 ha with rfl | ha
    · exact iff_of_false hw fun h => hmod h.2
    · exact h.answers a ha

section
variable {test : κ → Payload → σ → Bool × σ} {world : WorldId} {id : TriggerId} {place c : Nat}
  {j : List (Notice κ)}

/-- A link that always reacts when it may, without ever failing, and that is asked once per turn,
begins its reactions a period apart. -/
theorem Lawful.periodic (h : Lawful test world id place j)
    (hc : ∀ t ∈ firings id j, ∀ l ∈ t.links[place]?, l.pause = c)
    (halways : ∀ t ∈ firings id j, ∀ l ∈ t.links[place]?, l.condition = .always)
    (hok : Unfailing id place j) (hturns : TurnByTurn (attempts id place j)) {first : UInt64}
    (hfirst : (reactions (attempts id place j)).getLast? = some first) :
    Periodic (max c 1) first (attempts id place j) := by
  induction j with
  | nil => cases hfirst
  | cons n j ih =>
    have hc : ∀ t ∈ firings id j, ∀ l ∈ t.links[place]?, l.pause = c := fun t ht =>
      hc t (mem_firings_append [n] ht)
    have halways : ∀ t ∈ firings id j, ∀ l ∈ t.links[place]?, l.condition = .always := fun t ht =>
      halways t (mem_firings_append [n] ht)
    obtain hsame | ⟨p, now, answer, rfl, hmore⟩ := attempts_cons id place n j
    · rw [hsame] at hturns hfirst ⊢
      exact ih h.tail hc halways hok.2 hturns hfirst
    · rw [hmore] at hturns hfirst ⊢
      obtain ⟨-, t, ht, l, hl, hmark, hanswer⟩ := h.asked_inv
      have hrecorded : recorded id place j = reactions (attempts id place j) :=
        hok.1 (by simp [Notice.asks])
      cases hnone : reactions (attempts id place j) with
      | nil =>
        rw [reactions_cons, hnone] at hfirst
        split at hfirst
        · rename_i hw
          subst hw
          cases hfirst
          exact .first (by omega) hnone hturns.lt
        · cases hfirst
      | cons last before =>
        have hbegun : (reactions (attempts id place j)).getLast? = some first := by
          rw [reactions_cons, hnone] at hfirst
          rw [hnone]
          split at hfirst
          · exact (List.getLast?_cons_of_ne_nil (by simp)).symm.trans hfirst
          · exact hfirst
        have hold : TurnByTurn (attempts id place j) := (List.isChain_cons.1 hturns).2
        refine (ih h.tail hc halways hok.2 hold hbegun).cons hturns fun last' hlast => ?_
        -- its condition holds, so only the cooldown can keep the link from reacting
        have hfired : l.lastFired = some last' := by
          rw [hmark, lastFire, hrecorded, hlast]
          rfl
        rw [← Nat.not_lt, ← hc t ht l hl]
        have hon := @Link.onCooldown_iff κ l now
        rw [hfired] at hon
        cases answer with
        | resting =>
          obtain ⟨_, he, hnear⟩ := hon.1 hanswer
          cases he
          exact iff_of_false (by simp) (fun h => h hnear)
        | declined =>
          obtain ⟨-, r, state, hdeclined⟩ := hanswer
          rw [Link.admits_always (halways t ht l hl)] at hdeclined
          cases hdeclined
        | willing =>
          refine iff_of_true rfl fun hnear => ?_
          exact absurd (hon.2 ⟨_, rfl, hnear⟩) (by simpa using hanswer.1)

end

/-! ## The law of a cooldown -/

/-- What a journal tells of a link whose cooldown is `c` turns. -/
structure Paced (test : κ → Payload → σ → Bool × σ) (world : WorldId) (id : TriggerId)
    (place c : Nat) (j : List (Notice κ)) : Prop where
  /-- The turn is read when the link is asked. -/
  turn : ∀ later p turn answer earlier, j = later ++ .asked id place p turn answer :: earlier →
    turn = turnAt world p earlier
  /-- A payload that does not name the world meets no cooldown. -/
  foreign : ∀ later p turn answer earlier, j = later ++ .asked id place p turn answer :: earlier →
    p.world ≠ some world → answer ≠ .resting
  /-- A link refuses because of its cooldown if and only if its last recorded fire is less than `c`
  turns ago. -/
  resting : ∀ later p turn answer earlier, j = later ++ .asked id place p turn answer :: earlier →
    (answer = .resting ↔ ∃ now last, turn = some now ∧ lastFire id place earlier = some last ∧
      now.toNat - last.toNat < c)
  /-- So a refusal is owed to a recorded fire or, if there is none yet, to the mark that the link
  brought along. -/
  owed : ∀ later p turn earlier, j = later ++ .asked id place p turn .resting :: earlier →
    ∃ now, turn = some now ∧ ((∃ last ∈ recorded id place earlier, now.toNat - last.toNat < c) ∨
      recorded id place earlier = [] ∧
        ∃ last, brought id place j = some last ∧ now.toNat - last.toNat < c)
  /-- It refuses for no other reason than that its condition does not let it react. -/
  declined : ∀ later p turn answer earlier, j = later ++ .asked id place p turn answer :: earlier →
    answer = .declined → ∃ t ∈ firings id earlier, ∃ l ∈ t.links[place]?, ∃ r state,
      (l.admits test p r state).1 = false
  /-- A fire that is recorded was begun for a payload of the world, and at the turn that the link
  had read then. -/
  begun : ∀ later now earlier, j = later ++ .reacted id place (some now) :: earlier →
    ∃ p between before, earlier = between ++ .asked id place p (some now) .willing :: before ∧
      (∀ n ∈ between, n.concerns id place = false) ∧ p.world = some world ∧
        now = .ofNat (turns before)
  /-- Any two recorded fires are at least `c` turns apart. -/
  spaced : (recorded id place j).Pairwise fun later earlier => c ≤ later.toNat - earlier.toNat
  /-- They are told of in the order of their turns. -/
  ordered : turns j < UInt64.size →
    (recorded id place j).Pairwise fun later earlier => earlier ≤ later
  /-- If the link has no condition to meet, never fails and is asked once per turn, it reacts at
  every `c`-th turn from its first fire on, or at every turn if there is no cooldown. -/
  periodic : (∀ t ∈ firings id j, ∀ l ∈ t.links[place]?, l.condition = .always) →
    Unfailing id place j → TurnByTurn (attempts id place j) →
      ∀ first, (reactions (attempts id place j)).getLast? = some first →
        ∀ a ∈ attempts id place j, a.2 = .willing ↔
          first.toNat ≤ a.1.toNat ∧ (a.1.toNat - first.toNat) % max c 1 = 0

section
variable {test : κ → Payload → σ → Bool × σ} {world : WorldId} {id : TriggerId} {place c : Nat}
  {j : List (Notice κ)}

theorem Lawful.resting_iff {p : Payload} {turn : Option UInt64} {answer : Answer}
    (h : Lawful test world id place (.asked id place p turn answer :: j))
    (hc : ∀ t ∈ firings id j, ∀ l ∈ t.links[place]?, l.pause = c) :
    answer = .resting ↔ ∃ now last, turn = some now ∧ lastFire id place j = some last ∧
      now.toNat - last.toNat < c := by
  obtain ⟨-, t, ht, l, hl, hmark, hanswer⟩ := h.asked_inv
  rw [hanswer.resting_iff, ← hmark, ← hc t ht l hl]
  cases turn with
  | none => simp
  | some now =>
    rw [Option.any_some, Link.onCooldown_iff]
    simp

/-- A refusal is owed to the last recorded fire, or to what the link brought along. -/
theorem Lawful.owed {p : Payload} {turn : Option UInt64}
    (h : Lawful test world id place (.asked id place p turn .resting :: j))
    (hc : ∀ t ∈ firings id j, ∀ l ∈ t.links[place]?, l.pause = c) :
    ∃ now, turn = some now ∧ ((∃ last ∈ recorded id place j, now.toNat - last.toNat < c) ∨
      recorded id place j = [] ∧
        ∃ last, brought id place j = some last ∧ now.toNat - last.toNat < c) := by
  obtain ⟨now, last, hturn, hlast, hnear⟩ := (h.resting_iff hc).1 rfl
  refine ⟨now, hturn, ?_⟩
  rw [lastFire] at hlast
  cases hrec : recorded id place j with
  | nil =>
    rw [hrec] at hlast
    exact .inr ⟨rfl, last, hlast, hnear⟩
  | cons newest before =>
    rw [hrec] at hlast
    cases hlast
    exact .inl ⟨last, List.mem_cons_self, hnear⟩

/-- So it is in every lawful journal. -/
theorem Lawful.paced (h : Lawful test world id place j)
    (hc : ∀ t ∈ firings id j, ∀ l ∈ t.links[place]?, l.pause = c) :
    Paced test world id place c j where
  turn later p turn answer earlier hj := (hj ▸ h).of_append.asked_inv.1
  foreign later p turn answer earlier hj hworld hresting := by
    obtain ⟨hturn, t, ht, l, hl, -, hanswer⟩ := (hj ▸ h).of_append.asked_inv
    rw [turnAt, if_neg hworld] at hturn
    rw [hanswer.resting_iff, hturn] at hresting
    cases hresting
  resting later p turn answer earlier hj := by
    refine (hj ▸ h).of_append.resting_iff fun t ht => hc t ?_
    rw [hj, List.append_cons]
    exact mem_firings_append _ ht
  owed later p turn earlier hj := by
    have h := (hj ▸ h).of_append
    obtain ⟨-, t, ht, -⟩ := h.asked_inv
    rw [hj, List.append_cons, brought_append _ (List.ne_nil_of_mem ht)]
    refine h.owed fun t ht => hc t ?_
    rw [hj, List.append_cons]
    exact mem_firings_append _ ht
  declined later p turn answer earlier hj hdeclined := by
    obtain ⟨-, t, ht, l, hl, -, hanswer⟩ := (hj ▸ h).of_append.asked_inv
    rw [hdeclined] at hanswer
    exact ⟨t, ht, l, hl, hanswer.2⟩
  begun later now earlier hj := by
    have h := (hj ▸ h).of_append
    obtain ⟨p, between, before, rfl, hbetween⟩ := h.reacted_inv
    have hasked := h.tail.of_append.asked_inv.1
    obtain ⟨hworld, hnow⟩ := turnAt_eq_some.1 hasked.symm
    exact ⟨p, between, before, rfl, hbetween, hworld, hnow⟩
  spaced := h.spaced hc
  ordered := h.ordered
  periodic halways hok hturns first hfirst := (h.periodic hc halways hok hturns hfirst).answers

end

end Journal

end Encounter
