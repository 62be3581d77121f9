import Encounter.Engine.Program

/-!
# Runs

A run is what happens when an engine is at work together with its host. It goes step by step; each
step changes the engine or the host's state once, and is paid for from a budget. A run that has
spent its budget stops where it is, so the state at every moment of a run is the state after a run
with a smaller budget. The journal of a run keeps what happened, newest first.
-/

set_option autoImplicit false

namespace Encounter

/-- By what the time of an agenda is told. -/
inductive Calendar where
  /-- By the turns of the clock. -/
  | turns
  /-- By the rounds of the turn order. -/
  | rounds
  deriving DecidableEq, Repr

/-- What a link says to a payload. -/
inductive Answer where
  /-- It is on cooldown. -/
  | resting
  /-- Its condition does not let it react. -/
  | declined
  /-- It reacts. -/
  | willing
  deriving DecidableEq, Repr

/-- What a journal keeps. -/
inductive Notice (κ : Type) where
  /-- An event was emitted. -/
  | emitted (event : String) (payload : Payload)
  /-- A trigger was taken off the shelf to fire. -/
  | firing (id : TriggerId) (trigger : Trigger κ)
  /-- A link of a firing trigger, given by its place in the chain, was asked to react to a payload,
  at a turn if the payload belongs to the world. -/
  | asked (id : TriggerId) (place : Nat) (payload : Payload) (turn : Option UInt64)
    (answer : Answer)
  /-- The link reacted, and its fire was recorded for the turn at which it had been asked. -/
  | reacted (id : TriggerId) (place : Nat) (turn : Option UInt64)
  /-- A trigger that was firing went back, as the fire left it. -/
  | fired (id : TriggerId) (trigger : Trigger κ)
  /-- A trigger got a slot on the shelf, under a new number. -/
  | stored (id : TriggerId)
  /-- The slot of a trigger was removed. -/
  | dropped (id : TriggerId)
  /-- A trigger in its slot was rewritten. -/
  | rewritten (id : TriggerId)
  /-- The code of a handler was stored, under a new number. -/
  | handlerStored (handler : HandlerId)
  /-- The code of a handler was dropped. -/
  | handlerDropped (handler : HandlerId)
  /-- A handler was called. -/
  | handling (handler : HandlerId)
  /-- A task was put down, to be done some time later. -/
  | scheduled (calendar : Calendar) (now delay : UInt64) (task : Deferred κ)
  /-- The due tasks were taken off an agenda, to be done in this order. -/
  | collected (calendar : Calendar) (now : UInt64) (due : List (Deferred κ))
  /-- A task was begun that was collected; the number says at which collection, counted from
  zero. -/
  | running (collection : Nat) (task : Deferred κ)
  /-- An action was carried out, as far as it went. -/
  | acting (action : Action κ)
  /-- An interruption was put down. -/
  | enqueued (interruption : Interruption κ)
  /-- An interruption was taken out to be settled. -/
  | settling (interruption : Interruption κ)
  /-- An interruption was taken out and not settled. -/
  | withdrawn (interruption : Interruption κ)

/-- Does the notice tell of a collection? -/
def Notice.isCollected {κ : Type} : Notice κ → Bool
  | .collected .. => true
  | _ => false

/-- The triggers that a change stores, in the order in which they get their numbers. -/
def Change.stored {κ α : Type} (e : Engine κ) : Change κ α → List TriggerId
  | .register entity t =>
    match e.register entity t with
    | .ok (id, _) => [id]
    | .error _ => []
  | .registerGlobal t => [(e.registerGlobal t).1]
  | .addPresets entity =>
    match e.addPresets entity with
    | .ok (ids, _) => ids
    | .error _ => []
  | .load record =>
    match e.load record with
    | .ok ((_, ids), _) => ids
    | .error _ => []
  | _ => []

/-- What a change writes into the journal besides the slots that it makes and removes. -/
def Change.remarks {κ α : Type} (e : Engine κ) : Change κ α → List (Notice κ)
  | .editTrigger trigger _ => if (e.shelf.get? trigger).isSome then [.rewritten trigger] else []
  | .addHandler _ => [.handlerStored ⟨e.listeners.nextHandler⟩]
  | .removeHandler handler =>
    if (e.listeners.handler? handler).isSome then [.handlerDropped handler] else []
  | .schedule turns task payload =>
    [.scheduled .turns e.clock.turn turns ⟨task, payload⟩]
  | .scheduleRounds rounds task payload =>
    [.scheduled .rounds e.order.round rounds ⟨task, payload⟩]
  | .enqueue interruption => [.enqueued interruption]
  | .dequeue => (e.waiting.head?.map .withdrawn).toList
  | _ => []

/-- What a change that turns one engine into another writes into the journal, newest first. -/
def Change.notices {κ α : Type} (c : Change κ α) (before after : Engine κ) : List (Notice κ) :=
  (c.stored before).reverse.map .stored ++
    ((before.shelf.ids.filter fun id => !after.shelf.contains id).map .dropped ++
      c.remarks before)

/-- Does the change never come to an end? So it is with the search for a number of a new entity
when every number is taken. -/
def Change.isEndless {κ α : Type} (e : Engine κ) : Change κ α → Bool
  | .allocate => e.world.isFull
  | .spawn _ _ => e.world.isFull
  | .load record => e.world.isFull && (e.load record).isOk
  | _ => false

/-- How many numbers for handlers a change takes. -/
def Change.newHandlers {κ α : Type} : Change κ α → Nat
  | .addHandler _ => 1
  | _ => 0

/-- Does the change leave no next number for triggers or for handlers? Counting on past the last
number is an overflow, and the program that does it is aborted. -/
def Change.overflows {κ α : Type} (e : Engine κ) (c : Change κ α) : Bool :=
  UInt32.size ≤ e.shelf.nextId.toNat + (c.stored e).length ||
    UInt32.size ≤ e.listeners.nextHandler.toNat + c.newHandlers

/-- The state of a run. -/
structure Session (κ σ : Type) where
  engine : Engine κ
  host : σ
  journal : List (Notice κ) := []
  budget : Nat

/-- Why a run stops before its end. -/
inductive Stop where
  /-- The budget is spent. -/
  | spent
  /-- There was no next number for triggers or for handlers. -/
  | overflow

/-- A run that ends with an `α`. -/
abbrev Run (κ σ : Type) :=
  EStateM Stop (Session κ σ)

namespace Run

variable {κ σ α β : Type}

/-- Pays for a step. -/
def pay : Run κ σ Unit := fun s =>
  match s.budget with
  | 0 => .error .spent s
  | budget + 1 => .ok () { s with budget }

/-- A step that changes the engine and the state of the host. -/
def step (f : Engine κ → σ → α × Engine κ × σ) : Run κ σ α := do
  pay
  modifyGet fun s =>
    let (a, engine, host) := f s.engine s.host
    (a, { s with engine, host })

/-- A step that changes the engine. -/
def change (f : Engine κ → α × Engine κ) : Run κ σ α :=
  step fun e s =>
    let (a, e) := f e
    (a, e, s)

/-- A step that changes the state of the host. -/
def consult (f : σ → α × σ) : Run κ σ α :=
  step fun e s =>
    let (a, s) := f s
    (a, e, s)

/-- Writes into the journal. -/
def note (notice : Notice κ) : Run κ σ Unit :=
  modify fun s => { s with journal := notice :: s.journal }

/-- The engine as it stands. -/
def engine : Run κ σ (Engine κ) :=
  return (← get).engine

/-- Spends the whole budget. -/
def spend : Run κ σ α := fun s =>
  .error .spent { s with budget := 0 }

/-- The step that makes a change. A change that never comes to an end spends any budget. -/
def makeChange (c : Change κ α) : Run κ σ α := do
  pay
  let e ← engine
  if c.isEndless e then spend
  else if c.overflows e then throw .overflow
  else modifyGet fun s =>
    let (a, engine) := c.apply s.engine
    (a, { s with engine, journal := c.notices s.engine engine ++ s.journal })

/-! ## Serving several in turn -/

/-- Serves a payload to everybody in order, up to the first failure. -/
def untilFailure (serve : β → Payload → Run κ σ Delivery) : List β → Payload → Run κ σ Delivery
  | [], p => pure (.untouched p)
  | b :: rest, p => do
    let d ← serve b p
    match d.outcome with
    | .ok () => untilFailure serve rest d.payload
    | .error _ => pure d

/-- The first failure of two. -/
def firstFailure : Except Failure Unit → Except Failure Unit → Except Failure Unit
  | .ok (), later => later
  | .error failure, _ => .error failure

/-- Serves a payload to everybody in order, whatever fails, and reports the first failure. -/
def despiteFailures (serve : β → Payload → Run κ σ Delivery) :
    List β → Payload → Run κ σ Delivery
  | [], p => pure (.untouched p)
  | b :: rest, p => do
    let d ← serve b p
    let d' ← despiteFailures serve rest d.payload
    pure ⟨d'.payload, firstFailure d.outcome d'.outcome⟩

/-- Does everything in order, whatever fails, and reports the first failure. -/
def all (act : β → Run κ σ (Except Failure Unit)) : List β → Run κ σ (Except Failure Unit)
  | [] => pure (.ok ())
  | b :: rest => do
    let outcome ← act b
    let later ← all act rest
    pure (firstFailure outcome later)

end Run

end Encounter
