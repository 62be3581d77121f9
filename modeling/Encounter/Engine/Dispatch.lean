import Encounter.Engine.Run

/-!
# Dispatch

How an event finds those who listen to it, how a trigger fires, and how due tasks are done. Code is
run by `invoke`, which the definitions here take as an argument.

An event at a position of the engine's world is served to the entities there and to those that
notice it; each of them is served whatever happens to the others. Any other event is served to its
subscribers up to the first failure.
-/

set_option autoImplicit false

namespace Encounter

/-- How code serves a payload. -/
abbrev Invoke (κ σ : Type) :=
  κ → Payload → Run κ σ Delivery

namespace Run

variable {κ σ : Type} (host : Host κ σ) (invoke : Invoke κ σ)

/-! ## Collaborators -/

/-- Alerts the gamemaster, and tells whether there is one. -/
def alert (message : String) : Run κ σ Bool :=
  step fun e s => (e.gamemaster, e, if e.gamemaster then host.alerted message s else s)

/-- Plays a sound. -/
def play (file : String) : Run κ σ (Except AudioError Unit) :=
  step fun e s =>
    if e.audio then
      let (result, s) := host.play file s
      (result, e, s)
    else (.error .noOutput, e, s)

/-- Stops the sounds. -/
def silence : Run κ σ Unit :=
  step fun e s => ((), e, if e.audio then host.silence s else s)

/-! ## Firing -/

/-- Carries out a reaction. Damage without a target that can take it, and a sound that cannot be
played, are no failures. -/
def react (reaction : Reaction κ) (p : Payload) : Run κ σ Delivery := do
  match reaction with
  | .damage _ amount =>
    match p.target with
    | some target => makeChange (.damage target amount)
    | none => pure ()
    pure (.untouched p)
  | .alert message =>
    let _ ← alert host message
    pure (.untouched p)
  | .sound file =>
    let _ ← play host file
    pure (.untouched p)
  | .schedule turns event =>
    makeChange (.schedule turns (.emit event) p)
    pure (.untouched p)
  | .function _ code => invoke code p

/-- Asks a link whether it reacts to a payload. A link on cooldown does not, without evaluating its
condition. -/
def ask (l : Link κ) (turn : Option UInt64) (p : Payload) : Run κ σ Answer :=
  if turn.any l.onCooldown then pure .resting
  else step fun e s =>
    let (admitted, roller, s) := l.admits host.holds p e.roller s
    (if admitted then .willing else .declined, { e with roller }, s)

/-- Lets a chain react to a payload, link by link, as far as the links admit it and do not fail.
Gives the chain with its fires recorded. The payload says at the start of each link which turn
counts. `id` and `place` tell the journal whose link it is. -/
def respond (id : TriggerId) (place : Nat) (l : Link κ) (rest : List (Link κ)) (p : Payload) :
    Run κ σ (Trigger κ × Delivery) := do
  let turn := (← engine).turnFor p.world
  let answer ← ask host l turn p
  note (.asked id place p turn answer)
  match answer with
  | .resting => pure (⟨l, rest⟩, .untouched p)
  | .declined => pure (⟨l, rest⟩, .untouched p)
  | .willing =>
    let d ← react host invoke l.reaction p
    match d.outcome with
    | .error _ => pure (⟨l, rest⟩, d)
    | .ok () =>
      note (.reacted id place turn)
      let l := l.recordFire turn
      match rest with
      | [] => pure (⟨l, []⟩, d)
      | next :: rest =>
        let (t, d) ← respond id (place + 1) next rest d.payload
        pure (⟨l, t.links⟩, d)

/-- Takes a trigger off the shelf to fire. One that is firing already, or that is gone, is not
there. -/
def checkOut (id : TriggerId) : Run κ σ (Option (Trigger κ)) := do
  pay
  modifyGet fun s =>
    match s.engine.shelf.checkOut id with
    | (some t, shelf) =>
      (some t, { s with
        engine := { s.engine with shelf }
        journal := .firing id t :: s.journal })
    | (none, _) => (none, s)

/-- Puts a trigger back on the shelf when its fire ends; one that was removed in the meantime is
dropped. -/
def checkIn (id : TriggerId) (t : Trigger κ) : Run κ σ Unit := do
  pay
  modify fun s => { s with
    engine := { s.engine with shelf := s.engine.shelf.checkIn id t }
    journal := .fired id t :: s.journal }

/-- Fires a trigger. One that is firing already, or that is gone, is passed over. -/
def fire (id : TriggerId) (p : Payload) : Run κ σ Delivery := do
  match ← checkOut id with
  | none => pure (.untouched p)
  | some t =>
    let (t, d) ← respond host invoke id 0 t.head t.rest p
    checkIn id t
    pure d

/-! ## Events -/

/-- Serves a payload to a subscriber. A handler that is gone is passed over. -/
def serve (subscriber : Subscriber) (p : Payload) : Run κ σ Delivery := do
  match subscriber with
  | .trigger id => fire host invoke id p
  | .handler id =>
    match (← engine).listeners.handler? id with
    | none => pure (.untouched p)
    | some code =>
      note (.handling id)
      invoke code p

/-- Serves a payload to the triggers of an entity that listen to an event. -/
def serveEntity (event : String) (entity : EntityId) (p : Payload) : Run κ σ Delivery := do
  untilFailure (fire host invoke) ((← engine).triggersFor entity event) p

/-- Emits an event. -/
def emit (event : String) (p : Payload) : Run κ σ Delivery := do
  note (.emitted event p)
  let e ← engine
  match e.deliveryPosition? p with
  | some position => despiteFailures (serveEntity host invoke event) (e.receivers position) p
  | none => untilFailure (serve host invoke) (e.listeners.subscribers event) p

/-! ## Tasks -/

/-- Does a task that was collected. -/
def runTask (collection : Nat) (d : Deferred κ) : Run κ σ (Except Failure Unit) := do
  note (.running collection d)
  match d.task with
  | .run code => return (← invoke code d.payload).outcome
  | .emit event => return (← emit host invoke event d.payload).outcome

/-- Does the tasks that are due, all of them, and reports the first failure. -/
def runDue (calendar : Calendar) (now : UInt64) (due : List (AgendaEntry (Deferred κ))) :
    Run κ σ (Except Failure Unit) := do
  let collection := (← get).journal.countP Notice.isCollected
  note (.collected calendar now (due.map (·.item)))
  all (fun entry => runTask host invoke collection entry.item) due

/-- Moves the clock to the next turn and does what is due there. -/
def nextTurn : Run κ σ (Except Failure UInt64) := do
  let (due, turn) ← change fun e =>
    let (due, clock) := e.clock.advance
    ((due, clock.turn), { e with clock })
  let outcome ← runDue host invoke .turns turn due
  pure (outcome.map fun _ => turn)

/-- Starts the next round and does what is due there. -/
def startRound : Run κ σ (Except Failure UInt64) := do
  let (due, round) ← change fun e =>
    let (due, order) := e.order.startRound
    ((due, order.round), { e with order })
  let outcome ← runDue host invoke .rounds round due
  pure (outcome.map fun _ => round)

end Run

end Encounter
