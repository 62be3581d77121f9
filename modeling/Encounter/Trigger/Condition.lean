import Encounter.Text.Blank
import Encounter.Text.Numeral
import Encounter.Trigger.SkillCheck

/-!
# Conditions

A condition decides whether a trigger reacts to a payload. Besides the built-in ones there are
named functions; `κ` is the type of whatever stands for the code behind a name.
-/

set_option autoImplicit false

namespace Encounter

/-! ## Perception -/

/-- The name of the payload value that holds a perception score. -/
def perceptionName : String :=
  "perception"

/-- The perception score that a value stands for: a whole number, a number cut off at the point, or
a numeral with white space around it. Numbers beyond 64 bits stop at the limits. -/
def perception? : Option Json → Option Int64
  | some (.int i) => some (saturate64 i)
  | some (.float x) => some (saturate64 x.truncate)
  | some (.string s) => Text.int64? (Text.strip s.toList)
  | _ => none

/-! ## Conditions -/

/-- A predicate on payloads. -/
inductive Condition (κ : Type) where
  /-- Always holds. -/
  | always
  /-- The payload's perception score has to reach the difficulty. -/
  | perception (difficulty : Int64)
  /-- A skill check on the payload's modifiers has to pass. -/
  | skill (check : SkillCheck)
  /-- A named function decides. -/
  | function (name : String) (code : κ)
  deriving DecidableEq, Repr, Inhabited

namespace Condition

variable {κ κ' σ : Type}

/-- The name of the kind of condition in records. -/
def tag : Condition κ → String
  | always => "AlwaysTrue"
  | perception _ => "PerceptionCheck"
  | skill _ => "SkillCheck"
  | function _ _ => "function"

/-- Is the condition a skill check? -/
def isSkillCheck : Condition κ → Bool
  | skill _ => true
  | _ => false

/-- Replaces the code behind a name. -/
def mapCode (f : κ → κ') : Condition κ → Condition κ'
  | always => always
  | perception difficulty => perception difficulty
  | skill check => skill check
  | function name code => function name (f code)

/-- Are both written as one record? The code behind a name does not matter. -/
def sameRecord (a b : Condition κ) : Bool :=
  a.mapCode (fun _ => ()) = b.mapCode (fun _ => ())

/-- Evaluates the condition on a payload. Skill checks take words from the dice; `test` runs the
code behind a name, in a host of type `σ`. -/
def evaluate (test : κ → Payload → σ → Bool × σ) (c : Condition κ) (p : Payload) (r : Roller)
    (host : σ) : Bool × Roller × σ :=
  match c with
  | always => (true, r, host)
  | perception difficulty =>
    match perception? (p.value? perceptionName) with
    | some score => (difficulty ≤ score, r, host)
    | none => (false, r, host)
  | skill check =>
    let (passed, r) := check.attempt p.stats p.rollMode r
    (passed, r, host)
  | function _ code =>
    let (holds, host) := test code p host
    (holds, r, host)

end Condition

end Encounter
