import Encounter.Proofs.Following

/-!
# How far a chain fires

The links of a trigger react one after the other: each is asked with the payload that the reactions
before it have left, in the session to which they have led (`Run.Fired`). What ends the chain is
that no link is left, or what the next link does (`Run.Halts`); the links after it play no part.
`Run.chain_fires_prefix` says that this is all that a trigger does, whatever its reactions do, and
that it comes back with a fire recorded for the links that reacted and for no other.
-/

set_option autoImplicit false

namespace Encounter

namespace Link

variable {κ : Type} {l : Link κ} {e : Engine κ} {p : Payload}

/-- Does the cooldown keep the link from reacting? A payload of another world knows no turn, and no
cooldown. -/
def Rests (l : Link κ) (e : Engine κ) (p : Payload) : Prop :=
  p.world = some e.world.id ∧ l.onCooldown e.clock.turn = true

/-- The link, once it has reacted to a payload with which it was asked. Its fire is recorded for the
turn if the payload belonged to the world then. -/
def firedIn (l : Link κ) (e : Engine κ) (p : Payload) : Link κ :=
  { l with lastFired := if p.world = some e.world.id then some e.clock.turn else l.lastFired }

theorem any_onCooldown : (e.turnFor p.world).any l.onCooldown = true ↔ l.Rests e p := by
  unfold Engine.turnFor Rests
  split
  next hworld => simp [hworld]
  next hworld => simp [hworld]

theorem recordFire_turnFor : l.recordFire (e.turnFor p.world) = l.firedIn e p := by
  unfold Engine.turnFor recordFire firedIn
  split <;> rfl

end Link

namespace Run

variable {κ σ : Type} {host : Host κ σ} {invoke : Invoke κ σ} {id : TriggerId} {place : Nat}
  {l : Link κ} {p p' : Payload} {s s' : Session κ σ}

/-! ## One link -/

/-- The link is not on cooldown, and its condition, evaluated on the payload, lets it react or not.
That may have rolled the dice, and it is written down. -/
structure Evaluates (host : Host κ σ) (id : TriggerId) (place : Nat) (l : Link κ) (p : Payload)
    (s : Session κ σ) (admitted : Bool) (s' : Session κ σ) : Prop where
  rested : ¬l.Rests s.engine p
  evaluated : ∃ b roller state, s.budget = b + 1 ∧
    l.admits host.holds p s.engine.roller s.host = (admitted, roller, state) ∧
      s' = {
        engine := { s.engine with roller }
        host := state
        budget := b
        journal := .asked id place p (s.engine.turnFor p.world)
          (if admitted then .willing else .declined) :: s.journal }

/-- The link is asked and lets itself react, and its reaction does not fail. -/
inductive Reacts (host : Host κ σ) (invoke : Invoke κ σ) (id : TriggerId) (place : Nat)
    (l : Link κ) (p : Payload) (s : Session κ σ) : Payload → Session κ σ → Prop
  | intro {p' : Payload} {s₁ s₂ : Session κ σ} (h : Evaluates host id place l p s true s₁)
      (hreact : react host invoke l.reaction p s₁ = .ok ⟨p', .ok ()⟩ s₂) :
      Reacts host invoke id place l p s p' { s₂ with
        journal := .reacted id place (s.engine.turnFor p.world) :: s₂.journal }

/-- What ends a chain, when the links before `next` have reacted; with the delivery that the chain
gives then, or the reason for which the run stops. -/
inductive Halts (host : Host κ σ) (invoke : Invoke κ σ) (id : TriggerId) (place : Nat) :
    Option (Link κ) → Payload → Session κ σ → EStateM.Result Stop (Session κ σ) Delivery → Prop
  /-- No link is left. -/
  | complete {p : Payload} {s : Session κ σ} :
      Halts host invoke id place none p s (.ok ⟨p, .ok ()⟩ s)
  /-- The next link is on cooldown. Its condition is not evaluated. -/
  | resting {l : Link κ} {p : Payload} {s : Session κ σ} (h : l.Rests s.engine p) :
      Halts host invoke id place (some l) p s (.ok ⟨p, .ok ()⟩ { s with
        journal := .asked id place p (s.engine.turnFor p.world) .resting :: s.journal })
  /-- Its condition does not let it react. -/
  | declined {l : Link κ} {p : Payload} {s s₁ : Session κ σ}
      (h : Evaluates host id place l p s false s₁) :
      Halts host invoke id place (some l) p s (.ok ⟨p, .ok ()⟩ s₁)
  /-- Its reaction fails. -/
  | failed {l : Link κ} {p p' : Payload} {s s₁ s₂ : Session κ σ} {failure : Failure}
      (h : Evaluates host id place l p s true s₁)
      (hreact : react host invoke l.reaction p s₁ = .ok ⟨p', .error failure⟩ s₂) :
      Halts host invoke id place (some l) p s (.ok ⟨p', .error failure⟩ s₂)
  /-- The run stops before its condition is evaluated. -/
  | spent {l : Link κ} {p : Payload} {s : Session κ σ} (hrested : ¬l.Rests s.engine p)
      (hb : s.budget = 0) : Halts host invoke id place (some l) p s (.error .spent s)
  /-- The run stops in its reaction. -/
  | stopped {l : Link κ} {p : Payload} {s s₁ s₂ : Session κ σ} {stop : Stop}
      (h : Evaluates host id place l p s true s₁)
      (hreact : react host invoke l.reaction p s₁ = .error stop s₂) :
      Halts host invoke id place (some l) p s (.error stop s₂)

/-- A run that gives a trigger along with a delivery. -/
def carrying (t : Trigger κ) : EStateM.Result Stop (Session κ σ) Delivery →
    EStateM.Result Stop (Session κ σ) (Trigger κ × Delivery)
  | .ok d s => .ok (t, d) s
  | .error stop s => .error stop s

theorem ask_of_rests (h : l.Rests s.engine p) :
    ask host l (s.engine.turnFor p.world) p s = .ok .resting s := by
  rw [ask, if_pos (Link.any_onCooldown.2 h)]
  rfl

theorem ask_of_spent (hrested : ¬l.Rests s.engine p) (hb : s.budget = 0) :
    ask host l (s.engine.turnFor p.world) p s = .error .spent s := by
  rw [ask, if_neg (mt Link.any_onCooldown.1 hrested)]
  exact bind_eq_error.2 (.inl (pay_of_spent hb))

/-- A link that is not on cooldown evaluates its condition, if the run has a step left. -/
theorem exists_evaluates (host : Host κ σ) (id : TriggerId) (place : Nat)
    (hrested : ¬l.Rests s.engine p) {b : Nat} (hb : s.budget = b + 1) :
    ∃ admitted s₁, ask host l (s.engine.turnFor p.world) p s =
        .ok (if admitted then .willing else .declined) s₁ ∧
      Evaluates host id place l p s admitted { s₁ with
        journal := .asked id place p (s.engine.turnFor p.world)
          (if admitted then .willing else .declined) :: s₁.journal } := by
  obtain ⟨⟨admitted, roller, state⟩, hadmits⟩ :
      ∃ r, l.admits host.holds p s.engine.roller s.host = r := ⟨_, rfl⟩
  refine ⟨admitted,
    { s with engine := { s.engine with roller }, host := state, budget := b }, ?_,
    hrested, b, roller, state, hb, hadmits, rfl⟩
  rw [ask, if_neg (mt Link.any_onCooldown.1 hrested), step_eq_ok, hadmits]
  exact ⟨b, hb, rfl, rfl⟩

/-- A link ends its chain or reacts, whatever comes after it. -/
theorem halts_or_reacts (host : Host κ σ) (invoke : Invoke κ σ) (id : TriggerId) (place : Nat)
    (l : Link κ) (p : Payload) (s : Session κ σ) :
    (∃ result, Halts host invoke id place (some l) p s result ∧
      ∀ rest, respond host invoke id place l rest p s = carrying ⟨l, rest⟩ result) ∨
    ∃ p' s', Reacts host invoke id place l p s p' s' ∧
      ∀ rest, respond host invoke id place l rest p s =
        follow host invoke id place (l.firedIn s.engine p) rest ⟨p', .ok ()⟩ s' := by
  by_cases hrests : l.Rests s.engine p
  · exact .inl ⟨_, .resting hrests, fun rest =>
      respond_of_unwilling host (ask_of_rests hrests) (by decide)⟩
  cases hb : s.budget with
  | zero =>
    refine .inl ⟨_, .spent hrests hb, fun rest => ?_⟩
    rw [respond_eq, engine_bind]
    exact bind_eq_error.2 (.inl (ask_of_spent hrests hb))
  | succ b =>
    obtain ⟨admitted, s₁, hask, heval⟩ := exists_evaluates host id place hrests hb
    cases admitted with
    | false =>
      exact .inl ⟨_, .declined heval, fun rest => respond_of_unwilling host hask (by decide)⟩
    | true =>
      cases hreact : react host invoke l.reaction p { s₁ with
          journal := .asked id place p (s.engine.turnFor p.world) .willing :: s₁.journal } with
      | error stop s₂ =>
        exact .inl ⟨_, .stopped heval hreact, fun rest => respond_of_stop host hask hreact⟩
      | ok d s₂ =>
        obtain ⟨p', outcome⟩ := d
        cases outcome with
        | error failure =>
          exact .inl ⟨_, .failed heval hreact, fun rest => respond_of_willing host hask hreact⟩
        | ok =>
          refine .inr ⟨p', _, .intro heval hreact, fun rest => ?_⟩
          rw [respond_of_willing host hask hreact, Link.recordFire_turnFor]

/-! ## The chain -/

/-- The links react in order, each once, and each to what the one before has left. They come back
with their fires recorded. -/
inductive Fired (host : Host κ σ) (invoke : Invoke κ σ) (id : TriggerId) :
    Nat → List (Link κ) → Payload → Session κ σ → List (Link κ) → Payload → Session κ σ → Prop
  | nil {place : Nat} {p : Payload} {s : Session κ σ} : Fired host invoke id place [] p s [] p s
  | cons {place : Nat} {l : Link κ} {links recorded : List (Link κ)} {p p₁ p₂ : Payload}
      {s s₁ s₂ : Session κ σ} (h : Reacts host invoke id place l p s p₁ s₁)
      (hrest : Fired host invoke id (place + 1) links p₁ s₁ recorded p₂ s₂) :
      Fired host invoke id place (l :: links) p s (l.firedIn s.engine p :: recorded) p₂ s₂

/-- What a chain does: its first links react, as far as `fired` goes, and then it ends. Only the
first of the links that are left has a say in that, and they come back as they were. -/
theorem chain_fires_prefix (host : Host κ σ) (invoke : Invoke κ σ) (id : TriggerId) (place : Nat)
    (t : Trigger κ) (p : Payload) (s : Session κ σ) :
    ∃ fired left recorded p' s' result t', t.links = fired ++ left ∧
      Fired host invoke id place fired p s recorded p' s' ∧
      Halts host invoke id (place + fired.length) left.head? p' s' result ∧
      t'.links = recorded ++ left ∧
      respond host invoke id place t.head t.rest p s = carrying t' result := by
  obtain ⟨l, rest⟩ := t
  induction rest generalizing place l p s with
  | nil =>
    obtain ⟨result, hhalts, hrespond⟩ | ⟨p', s', hreacts, hrespond⟩ :=
      halts_or_reacts host invoke id place l p s
    · exact ⟨[], [l], [], p, s, result, ⟨l, []⟩, rfl, .nil, hhalts, rfl, hrespond []⟩
    · exact ⟨[l], [], [l.firedIn s.engine p], p', s', _, ⟨l.firedIn s.engine p, []⟩, rfl,
        .cons hreacts .nil, .complete, rfl, hrespond []⟩
  | cons next rest ih =>
    obtain ⟨result, hhalts, hrespond⟩ | ⟨p₁, s₁, hreacts, hrespond⟩ :=
      halts_or_reacts host invoke id place l p s
    · exact ⟨[], l :: next :: rest, [], p, s, result, ⟨l, next :: rest⟩, rfl, .nil, hhalts, rfl,
        hrespond (next :: rest)⟩
    · obtain ⟨fired, left, recorded, p', s', result, t', hlinks, hfired, hhalts, hlinks',
        hnext⟩ := ih (place + 1) p₁ s₁ next
      refine ⟨l :: fired, left, l.firedIn s.engine p :: recorded, p', s', result,
        ⟨l.firedIn s.engine p, t'.links⟩, ?_, .cons hreacts hfired, ?_, ?_, ?_⟩
      · exact congrArg (l :: ·) hlinks
      · have hplace : place + (fired.length + 1) = place + 1 + fired.length := by omega
        rwa [List.length_cons, hplace]
      · exact congrArg (_ :: ·) hlinks'
      · rw [hrespond, follow]
        cases result with
        | ok d s₂ => exact (bind_of_ok hnext).trans rfl
        | error stop s₂ => exact bind_eq_error.2 (.inl hnext)

end Run

end Encounter
