import Encounter.Proofs.Chains
import Encounter.Proofs.Checks

/-!
# Saving throws

Whether a link reacts can be told in two ways (`Link.decides`): a skill check is made for the link,
and damage turns its outcome round; any other condition is evaluated as it stands. This comes to
the same as evaluating every condition and turning saving throws round (`Link.admits_eq_decides`).

A link that is asked takes one step to its answer, and the answer decides how its chain goes on
(`Run.Decides`). `Run.saving_throw_inverts` compares the answers of one link with all the reactions
that it could have: they come of one attempt at its check, and leave the same dice.
-/

set_option autoImplicit false

namespace Encounter

/-! ## Two ways to an answer -/

namespace Link

variable {κ σ : Type}

/-- Tells whether the link reacts. A skill check is made here, and damage befalls who fails it. -/
def decides (test : κ → Payload → σ → Bool × σ) (l : Link κ) (p : Payload) (r : Roller)
    (host : σ) : Bool × Roller × σ :=
  match l.condition with
  | .skill check =>
    let (passed, r) := check.attempt p.stats p.rollMode r
    (if l.reaction.isDamage then !passed else passed, r, host)
  | condition => condition.evaluate test p r host

theorem admits_eq_decides (test : κ → Payload → σ → Bool × σ) (l : Link κ) (p : Payload)
    (r : Roller) (host : σ) : l.admits test p r host = l.decides test p r host := by
  unfold admits decides isSavingThrow
  cases l.condition with
  | skill check => cases l.reaction.isDamage <;> simp [Condition.isSkillCheck, Condition.evaluate]
  | always | perception difficulty | function name code => simp [Condition.isSkillCheck]

/-- The link with a skill check for its condition, and with some reaction. -/
def checking (l : Link κ) (check : SkillCheck) (reaction : Reaction κ) : Link κ :=
  { l with condition := .skill check, reaction }

/-- Who passes the check is spared damage, and meets with any other reaction. -/
theorem decides_checking {check : SkillCheck} {p : Payload} {r roller : Roller} {passed : Bool}
    (h : check.attempt p.stats p.rollMode r = (passed, roller))
    (test : κ → Payload → σ → Bool × σ) (l : Link κ) (reaction : Reaction κ) (host : σ) :
    (l.checking check reaction).decides test p r host =
      (passed != reaction.isDamage, roller, host) := by
  simp only [decides, checking, h]
  cases reaction.isDamage <;> simp

end Link

namespace Run

variable {κ σ : Type} (host : Host κ σ) (invoke : Invoke κ σ) (id : TriggerId) (place : Nat)
  {l : Link κ} {rest : List (Link κ)} {p : Payload} {s s' : Session κ σ} {answer : Answer}

/-- Goes on from the answer of a link. A willing one reacts, and unless that fails its fire is
recorded and the rest of the chain follows. Otherwise the chain ends, and comes back as it was. -/
def carryOn (l : Link κ) (rest : List (Link κ)) (p : Payload) (turn : Option UInt64) :
    Answer → Run κ σ (Trigger κ × Delivery)
  | .willing => do
    let d ← react host invoke l.reaction p
    match d.outcome with
    | .error _ => pure (⟨l, rest⟩, d)
    | .ok () =>
      note (.reacted id place turn)
      follow host invoke id place (l.recordFire turn) rest d
  | .resting | .declined => pure (⟨l, rest⟩, .untouched p)

/-- The first link of the chain, asked in `s`, has come to its answer in `s'`: the answer is written
down there, and the run goes on from it. -/
def Decides (l : Link κ) (rest : List (Link κ)) (p : Payload) (s : Session κ σ) (answer : Answer)
    (s' : Session κ σ) : Prop :=
  respond host invoke id place l rest p s =
    carryOn host invoke id place l rest p (s.engine.turnFor p.world) answer { s' with
      journal := .asked id place p (s.engine.turnFor p.world) answer :: s'.journal }

theorem decides_of_ask (h : ask host l (s.engine.turnFor p.world) p s = .ok answer s') :
    Decides host invoke id place l rest p s answer s' := by
  unfold Decides
  rw [respond_eq, engine_bind, bind_of_ok h]
  cases answer <;> rfl

/-- A link that is not on cooldown takes a step to find out whether it reacts. -/
theorem decides_of_decides {b : Nat} {reacts : Bool} {roller : Roller} {state : σ}
    (hrested : ¬l.Rests s.engine p) (hb : s.budget = b + 1)
    (h : l.decides host.holds p s.engine.roller s.host = (reacts, roller, state)) :
    Decides host invoke id place l rest p s (if reacts then .willing else .declined)
      { s with engine := { s.engine with roller }, host := state, budget := b } := by
  refine decides_of_ask host invoke id place ?_
  rw [ask, if_neg (mt Link.any_onCooldown.1 hrested), step_eq_ok, Link.admits_eq_decides, h]
  exact ⟨b, hb, rfl, rfl⟩

/-! ## Saving throws -/

/-- A link on cooldown is not put to the test, and leaves the dice alone. With a skill check, a link
that is not on cooldown takes one step, in which the check is made once, as evaluating it as a
condition would make it, and comes to the same session whatever its reaction is. There it inflicts
damage if the check was failed, and reacts in any other way if it was passed. A check that is
settled without a roll leaves the dice alone. -/
theorem saving_throw_inverts (host : Host κ σ) (invoke : Invoke κ σ) (id : TriggerId) (place : Nat)
    (l : Link κ) (p : Payload) (s : Session κ σ) :
    (l.Rests s.engine p → ∀ rest, Decides host invoke id place l rest p s .resting s) ∧
    ∀ check : SkillCheck, ¬l.Rests s.engine p → ∀ b, s.budget = b + 1 → ∃ passed roller,
      check.attempt p.stats p.rollMode s.engine.roller = (passed, roller) ∧
      (Condition.skill check).evaluate host.holds p s.engine.roller s.host =
        (passed, roller, s.host) ∧
      (check.isAuto = true → roller = s.engine.roller) ∧
      (∀ type amount rest,
        Decides host invoke id place (l.checking check (.damage type amount)) rest p s
          (if passed then .declined else .willing)
          { s with engine := { s.engine with roller }, budget := b }) ∧
      ∀ reaction rest, reaction.isDamage = false →
        Decides host invoke id place (l.checking check reaction) rest p s
          (if passed then .willing else .declined)
          { s with engine := { s.engine with roller }, budget := b } := by
  refine ⟨fun hrests rest => decides_of_ask host invoke id place (ask_of_rests hrests),
    fun check hrested b hb => ?_⟩
  obtain ⟨⟨passed, roller⟩, hattempt⟩ :
      ∃ result, check.attempt p.stats p.rollMode s.engine.roller = result := ⟨_, rfl⟩
  have hdecides : ∀ reaction rest, Decides host invoke id place (l.checking check reaction) rest p s
      (if passed != reaction.isDamage then .willing else .declined)
      { s with engine := { s.engine with roller }, budget := b } := fun reaction rest =>
    decides_of_decides host invoke id place hrested hb
      (l.decides_checking hattempt host.holds reaction s.host)
  refine ⟨passed, roller, hattempt, ?_, fun hauto => ?_, fun type amount rest => ?_,
    fun reaction rest hreaction => ?_⟩
  · simp only [Condition.evaluate, hattempt]
  · rw [SkillCheck.attempt_of_auto hauto] at hattempt
    exact (Prod.mk.inj hattempt).2.symm
  · have h := hdecides (.damage type amount) rest
    cases passed <;> exact h
  · have h := hdecides reaction rest
    rw [hreaction] at h
    cases passed <;> exact h

/-- A roll of 14 fails a check of 15: who falls into the pit takes damage, and raises no alert. -/
theorem saving_throw_inverts_pit :
    let host := Host.removing ⟨1⟩
    let pit : Link Unit := .new "step" .always (.alert "a pit")
    let p : Payload := { world := some Engine.defaultWorld, target := some ⟨1⟩ }
    let s : Session Unit Unit := .opening Engine.defaultWorld {} () 10
    let check : SkillCheck := { skill := "dexterity", difficulty := 15 }
    ¬pit.Rests s.engine p ∧ s.budget = 9 + 1 ∧ (Reaction.alert "a pit" : Reaction Unit).isDamage =
      false ∧ ∃ roller : Roller, roller.position = 1 ∧
        Decides host (code host 10) ⟨1⟩ 0 (pit.checking check (.damage "fall" 5)) [] p s .willing
          { s with engine := { s.engine with roller }, budget := 9 } ∧
        Decides host (code host 10) ⟨1⟩ 0 (pit.checking check (.alert "a pit")) [] p s .declined
          { s with engine := { s.engine with roller }, budget := 9 } := by
  intro host pit p s check
  have hrested : ¬pit.Rests s.engine p := fun h => Bool.false_ne_true h.2
  obtain ⟨passed, roller, hattempt, -, -, hdamage, hother⟩ :=
    (saving_throw_inverts host (code host 10) ⟨1⟩ 0 pit p s).2 check hrested 9 rfl
  have hfailed : passed = false ∧ roller.position = 1 := by
    have hresult : (check.attempt p.stats p.rollMode s.engine.roller).1 = false ∧
        (check.attempt p.stats p.rollMode s.engine.roller).2.position = 1 := by decide +kernel
    rwa [hattempt] at hresult
  obtain ⟨rfl, hposition⟩ := hfailed
  exact ⟨hrested, rfl, rfl, roller, hposition, hdamage "fall" 5 [], hother (.alert "a pit") [] rfl⟩

end Run

end Encounter
