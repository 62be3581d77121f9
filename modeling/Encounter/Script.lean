import Encounter.Engine.Program

/-!
# Scripts

The scripted table is a host whose code is data. A script is a list of steps that serve one payload
one after the other; a step that fails ends its script with its failure, unless the script goes on.
How deep scripts nest and how many steps they take is limited, and a transcript keeps what happened
at the table, newest first. What a step does is up to whoever sets the table.
-/

set_option autoImplicit false

namespace Encounter

/-! ## Code as data -/

/-- A test of the free values of a payload. -/
inductive ValueTest where
  | constant (result : Bool)
  /-- The value is there. -/
  | has (name : String)
  /-- The value is there and equals another one. -/
  | equals (name : String) (value : Json)

/-- Does the payload pass the test? -/
def ValueTest.holds (p : Payload) : ValueTest → Bool
  | constant result => result
  | has name => (p.value? name).isSome
  | equals name value => (p.value? name).any value.sameValue

/-- A step of a script. -/
structure ScriptStep (ι : Type) where
  name : String
  /-- Does the script go on if the step fails? -/
  goesOn : Bool
  act : ι

/-- A list of steps. -/
structure Script (ι : Type) where
  name : String
  steps : List (ScriptStep ι)

/-- Code of the scripted table. -/
inductive ScriptCode (ι : Type) where
  /-- A named condition. -/
  | test (name : String) (predicate : ValueTest)
  /-- A handler, a named reaction, a task or an interruption. -/
  | script (script : Script ι)
  /-- An action, and why it cannot be carried out, if so. -/
  | deed (script : Script ι) (objection : Option String)
  /-- An actor that takes one decision after the other. -/
  | plan (number : Nat) (decisions : List (Option (Action (ScriptCode ι))))

/-! ## The state of the table -/

/-- What a transcript keeps. -/
inductive TableEntry where
  /-- The gamemaster got a message. -/
  | alerted (message : String)
  /-- A sound was played. -/
  | played (file : String)
  /-- The sounds were stopped. -/
  | silenced
  /-- A named condition was evaluated. -/
  | tested (name : String) (result : Bool)
  /-- A script was begun. -/
  | entered (script : String)
  /-- A step of a script was taken. -/
  | stepped (script step : String) (answer : Except Failure Json)

/-- What becomes of the sounds at the table. -/
inductive SoundMode where
  | played
  | notFound
  | deviceLost
  deriving DecidableEq, Repr, Inhabited

/-- The state of the table. -/
structure Table where
  transcript : List TableEntry := []
  /-- How many scripts are running inside one another. -/
  depth : Nat := 0
  /-- How many steps were taken. -/
  steps : Nat := 0
  sound : SoundMode := .played
  /-- How many plans there are. -/
  plans : Nat := 0
  /-- How many decisions of a plan were taken. -/
  decided : Std.ExtTreeMap Nat Nat := ∅
  deriving Inhabited

namespace Table

/-- How many scripts can run inside one another. -/
def maxDepth : Nat :=
  12

/-- How many steps can be taken. -/
def maxSteps : Nat :=
  500

/-- Writes into the transcript. -/
def note (t : Table) (entry : TableEntry) : Table :=
  { t with transcript := entry :: t.transcript }

/-- Starts anew, with an empty transcript and no steps taken. -/
def fresh (t : Table) : Table :=
  { t with transcript := [], steps := 0 }

/-- Begins a script, unless too many are running. -/
def enter (script : String) (t : Table) : Bool × Table :=
  if maxDepth ≤ t.depth then (false, t)
  else (true, { t.note (.entered script) with depth := t.depth + 1 })

/-- Ends a script. -/
def leave (t : Table) : Unit × Table :=
  ((), { t with depth := t.depth - 1 })

/-- Counts a step, unless too many were taken. -/
def spend (t : Table) : Bool × Table :=
  if maxSteps ≤ t.steps then (false, t) else (true, { t with steps := t.steps + 1 })

/-- Numbers a new plan. -/
def newPlan (t : Table) : Nat × Table :=
  (t.plans, { t with plans := t.plans + 1 })

/-- The place of the next decision of a plan. -/
def nextDecision (plan : Nat) (t : Table) : Nat × Table :=
  let taken := t.decided[plan]?.getD 0
  (taken, { t with decided := t.decided.insert plan (taken + 1) })

/-- Plays a sound. -/
def play (file : String) (t : Table) : Except AudioError Unit × Table :=
  let result := match t.sound with
    | .played => .ok ()
    | .notFound => .error (.notFound file)
    | .deviceLost => .error (.playback "device lost")
  (result, t.note (.played file))

end Table

/-! ## Running scripts -/

/-- What a step does with a payload: its answer, and the payload as it leaves it. -/
abbrev Perform (ι : Type) :=
  ι → Payload → Program (ScriptCode ι) Table (Except Failure Json × Payload)

namespace Script

variable {ι : Type} (perform : Perform ι)

/-- Takes steps one after the other. -/
def takeSteps (script : String) :
    List (ScriptStep ι) → Payload → Program (ScriptCode ι) Table Delivery
  | [], p => pure (.untouched p)
  | step :: rest, p => do
    if !(← Program.consult Table.spend) then pure ⟨p, .error (.callback "script too long")⟩
    else
      let (answer, p) ← perform step.act p
      Program.consult fun t => ((), t.note (.stepped script step.name answer))
      match answer with
      | .ok _ => takeSteps script rest p
      | .error failure =>
        if step.goesOn then takeSteps script rest p else pure ⟨p, .error failure⟩

/-- Runs a script on a payload. -/
def run (s : Script ι) (p : Payload) : Program (ScriptCode ι) Table Delivery := do
  if !(← Program.consult (Table.enter s.name)) then
    pure ⟨p, .error (.callback "script too deep")⟩
  else
    let d ← takeSteps perform s.name s.steps p
    Program.consult Table.leave
    pure d

end Script

namespace ScriptCode

variable {ι : Type}

/-- The name of a piece of code. -/
def name : ScriptCode ι → String
  | test name _ => name
  | script s => s.name
  | deed s _ => s.name
  | plan _ _ => ""

/-- Evaluates a named condition. -/
def evaluate (code : ScriptCode ι) (p : Payload) (t : Table) : Bool × Table :=
  match code with
  | test name predicate =>
    let result := predicate.holds p
    (result, t.note (.tested name result))
  | _ => (false, t)

/-- The program of a piece of code. -/
def behaviour (perform : Perform ι) : ScriptCode ι → Payload → Program (ScriptCode ι) Table Delivery
  | script s, p => s.run perform p
  | deed s _, p => s.run perform p
  | _, p => pure (.untouched p)

/-- The next decision of an actor; past the end of its plan it passes. -/
def decide (code : ScriptCode ι) (t : Table) : Option (Action (ScriptCode ι)) × Table :=
  match code with
  | plan number decisions =>
    let (place, t) := t.nextDecision number
    (decisions[place]?.join, t)
  | _ => (none, t)

/-- Why an action cannot be carried out, if so. -/
def objection : ScriptCode ι → Option String
  | deed _ objection => objection
  | _ => none

end ScriptCode

/-- The host at the scripted table. -/
def Table.host {ι : Type} (perform : Perform ι) : Host (ScriptCode ι) Table where
  holds := ScriptCode.evaluate
  behaviour := ScriptCode.behaviour perform
  decide code _ _ t := code.decide t
  objection code _ := code.objection
  describe := ScriptCode.name
  alerted message t := t.note (.alerted message)
  play := Table.play
  silence t := t.note .silenced

end Encounter
