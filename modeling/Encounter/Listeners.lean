import Encounter.Id

/-!
# Listeners

Who listens to which event, in the order of subscription, and the code of the plain handlers. An
event without listeners has no entry.
-/

set_option autoImplicit false

namespace Encounter

/-- Someone who can listen to an event. -/
inductive Subscriber where
  | trigger (id : TriggerId)
  | handler (id : HandlerId)
  deriving DecidableEq, Repr, Inhabited

/-- The text of a subscriber's number. -/
def Subscriber.text : Subscriber → String
  | trigger id => id.text
  | handler id => id.text

/-- The subscribers of each event, and the handlers. -/
structure Listeners (κ : Type) where
  lists : Std.ExtTreeMap String (List Subscriber)
  handlers : Std.ExtTreeMap HandlerId κ
  nextHandler : UInt32

namespace Listeners

variable {κ : Type}

/-- Nobody listens. -/
def empty : Listeners κ :=
  ⟨∅, ∅, 0⟩

instance : Inhabited (Listeners κ) := ⟨empty⟩

/-- The subscribers of an event, in the order of subscription. -/
def subscribers (l : Listeners κ) (event : String) : List Subscriber :=
  l.lists[event]?.getD []

/-- Does the subscriber listen to the event? -/
def isSubscribed (l : Listeners κ) (event : String) (s : Subscriber) : Bool :=
  s ∈ l.subscribers event

/-- Subscribes to an event, behind the others. Tells whether the subscription is new; one that
exists already keeps its place. -/
def subscribe (l : Listeners κ) (event : String) (s : Subscriber) : Bool × Listeners κ :=
  if l.isSubscribed event s then (false, l)
  else (true, { l with lists := l.lists.insert event (l.subscribers event ++ [s]) })

/-- The list without a subscriber; none if nobody is left. -/
def without? (s : Subscriber) (list : List Subscriber) : Option (List Subscriber) :=
  let rest := list.filter (· ≠ s)
  if rest.isEmpty then none else some rest

/-- Ends a subscription to an event. -/
def unsubscribe (l : Listeners κ) (event : String) (s : Subscriber) : Listeners κ :=
  { l with lists := l.lists.alter event (·.bind (without? s)) }

/-- Ends all subscriptions of a subscriber. -/
def unsubscribeAll (l : Listeners κ) (s : Subscriber) : Listeners κ :=
  { l with lists := l.lists.filterMap fun _ list => without? s list }

/-- Stores the code of a handler under a new number. -/
def addHandler (l : Listeners κ) (code : κ) : HandlerId × Listeners κ :=
  let id : HandlerId := ⟨l.nextHandler⟩
  (id, { l with handlers := l.handlers.insert id code, nextHandler := l.nextHandler + 1 })

/-- Drops a handler and its subscriptions. -/
def removeHandler (l : Listeners κ) (id : HandlerId) : Listeners κ :=
  unsubscribeAll { l with handlers := l.handlers.erase id } (.handler id)

/-- The code of a handler. -/
def handler? (l : Listeners κ) (id : HandlerId) : Option κ :=
  l.handlers[id]?

/-- The events that somebody listens to, sorted. -/
def events (l : Listeners κ) : List String :=
  l.lists.keys

/-- The subscribers of each event, sorted by event. -/
def toList (l : Listeners κ) : List (String × List Subscriber) :=
  l.lists.toList

/-- Drops every subscription; the handlers stay. -/
def reset (l : Listeners κ) : Listeners κ :=
  { l with lists := ∅ }

end Listeners

end Encounter
