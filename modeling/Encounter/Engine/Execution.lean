import Encounter.Engine.Play

/-!
# Running programs

A program is run operation by operation. Code that an operation invokes is a program again, so runs
nest; how deep they may nest is bounded by the budget, since every invocation is paid for.
-/

set_option autoImplicit false

namespace Encounter

variable {κ σ α : Type}

namespace Run

variable (host : Host κ σ) (invoke : Invoke κ σ)

/-- Runs an operation. -/
def operation : Operation κ σ α → Run κ σ α
  | .look => engine
  | .recall => return (← get).host
  | .remember s => consult fun _ => ((), s)
  | .change c => makeChange c
  | .emit event p => emit host invoke event p
  | .fire id p => fire host invoke id p
  | .nextTurn => nextTurn host invoke
  | .startRound => startRound host invoke
  | .playTurn => playTurn host invoke
  | .settle => settle host invoke
  | .alert message => alert host message
  | .play file => play host file
  | .silence => silence host

/-- Runs a program. -/
def program : Program κ σ α → Run κ σ α
  | .done a => pure a
  | .perform op next => do
    let b ← operation host invoke op
    program (next b)

/-- Runs code on a payload, at most `depth` invocations inside one another. -/
def code : Nat → Invoke κ σ
  | 0 => fun _ _ => throw .spent
  | depth + 1 => fun c p => do
    pay
    program host (code depth) (host.behaviour c p)

end Run

/-- Runs a program in a session. -/
def Session.run (host : Host κ σ) (p : Program κ σ α) (s : Session κ σ) :
    EStateM.Result Stop (Session κ σ) α :=
  Run.program host (Run.code host s.budget) p s

end Encounter
