import Encounter.Engine.Dispatch

/-!
# Playing a turn

The current participant's actor chooses an action. A valid action is announced; if interruptions
wait then, they are settled in its place, and otherwise it is carried out and announced as done.
Whatever comes of it, what is due at the end of the turn is done and the turn is passed on.

Interruptions are settled first in, first out. One that fails does not hold up the others, and those
that come in meanwhile are settled too.
-/

set_option autoImplicit false

namespace Encounter

namespace Engine

variable {κ : Type}

/-- Why an action cannot be carried out as things stand, if so; `custom` objects to custom ones. -/
def objection (custom : κ → Engine κ → Option String) (e : Engine κ) : Action κ → Option String
  | .move entity goal =>
    if (e.world.entity? entity).isNone then some (entity.text ++ " does not exist")
    else if !e.world.grid.contains goal then some (goal.text ++ " is off the map")
    else if e.world.grid.blocksMovement goal then some (goal.text ++ " is blocked")
    else none
  | .strike attacker target _ _ =>
    if (e.world.entity? attacker).isNone then some (attacker.text ++ " does not exist")
    else
      match e.world.entity? target with
      | none => some (target.text ++ " does not exist")
      | some record =>
        if record.hasVitals then none else some (record.name ++ " cannot take damage")
  | .custom code => custom code e

/-- Rolls damage against an entity. The dice are rolled even if the target is gone. -/
def strike (e : Engine κ) (target : EntityId) (dice : Dice) : Except Failure Unit × Engine κ :=
  let (amount, roller) := dice.roll e.roller
  let e := { e with roller }
  if (e.world.entity? target).isSome then (.ok (), e.damage target amount)
  else (.error (.unknownEntity target), e)

/-- The payload that announces an action of an entity. -/
def announcement (e : Engine κ) (entity : EntityId) (description : String) : Payload :=
  Payload.setValue { world := some e.world.id, source := some entity } actionName
    (.string description)

end Engine

namespace Run

variable {κ σ : Type} (host : Host κ σ) (invoke : Invoke κ σ)

/-! ## Interruptions -/

/-- Settles an interruption. A contest alerts the gamemaster and is announced. -/
def settleOne (interruption : Interruption κ) : Run κ σ (Except Failure Unit) := do
  note (.settling interruption)
  match interruption with
  | .contest reactor action =>
    let e ← engine
    match e.world.entity? reactor with
    | none => pure (.error (.unknownEntity reactor))
    | some entity =>
      let _ ← alert host (entity.name ++ " reacts to " ++ action)
      return (← emit host invoke reactionResolved (e.announcement reactor action)).outcome
  | .custom code => return (← invoke code {}).outcome

/-- Settles interruptions until none waits, and tells what came of each. Taking one out is a step,
so `rounds` need not exceed the budget. -/
def settleAll : Nat → Run κ σ (List (Except Failure Unit))
  | 0 => throw .spent
  | rounds + 1 => do
    match ← change Engine.dequeue with
    | none => pure []
    | some interruption =>
      let outcome ← settleOne host invoke interruption
      let outcomes ← settleAll rounds
      pure (outcome :: outcomes)

/-- Settles the interruptions that wait, and counts those that succeeded. -/
def settle : Run κ σ Nat := do
  let outcomes ← settleAll host invoke (← get).budget
  pure (outcomes.countP (·.isOk))

/-! ## Actions -/

/-- Carries out an action. -/
def act (action : Action κ) : Run κ σ (Except Failure Unit) := do
  note (.acting action)
  match action with
  | .move entity goal =>
    match ← makeChange (.move entity goal) with
    | .error failure => pure (.error failure)
    | .ok false => pure (.ok ())
    | .ok true =>
      let world := (← engine).world.id
      let p : Payload := { world := some world, position := some goal, source := some entity }
      return (← emit host invoke onEnter p).outcome
  | .strike _ target dice _ => change (·.strike target dice)
  | .custom code => return (← invoke code {}).outcome

/-- Carries out an announced action and announces that it is done. -/
def actAndAnnounce (action : Action κ) (p : Payload) : Run κ σ (Except Failure TurnOutcome) := do
  match ← act host invoke action with
  | .error failure => pure (.error failure)
  | .ok () =>
    let d ← emit host invoke actionExecuted p
    pure (d.outcome.map fun _ => .executed)

/-! ## Turns -/

/-- Lets the actor of an entity decide. -/
def decide (entity : EntityId) : Run κ σ (Option (Action κ)) :=
  step fun e s =>
    match e.actors[entity]? with
    | none => (none, e, s)
    | some code =>
      let (action, s) := host.decide code entity e s
      (action, e, s)

/-- The turn of an entity, up to its end. -/
def takeTurn (entity : EntityId) : Run κ σ (Except Failure TurnOutcome) := do
  match ← decide host entity with
  | none => pure (.ok .idle)
  | some action =>
    let e ← engine
    match e.objection host.objection action with
    | some reason => pure (.ok (.rejected reason))
    | none =>
      let p := e.announcement entity (action.describe host.describe)
      let d ← emit host invoke actionProposed p
      match d.outcome with
      | .error failure => pure (.error failure)
      | .ok () =>
        if (← engine).waiting.isEmpty then actAndAnnounce host invoke action d.payload
        else
          let _ ← settle host invoke
          pure (.ok .contested)

/-- Does what is due at the end of a turn and passes the turn on. -/
def endTurn : Run κ σ (Except Failure Unit) := do
  let (due, round) ← change fun e =>
    let (due, order) := e.order.takeDue
    ((due, order.round), { e with order })
  let outcome ← runDue host invoke .rounds round due
  change fun e => ((), { e with order := e.order.next })
  pure outcome

/-- Plays the turn of the current participant and passes the turn on. A failure of the turn counts
before one of its end. -/
def playTurn : Run κ σ (Except Failure TurnOutcome) := do
  let outcome ← match (← engine).order.current? with
    | some entity => takeTurn host invoke entity
    | none => pure (.ok .idle)
  let ended ← endTurn host invoke
  pure (outcome.bind fun outcome => ended.map fun _ => outcome)

end Run

end Encounter
