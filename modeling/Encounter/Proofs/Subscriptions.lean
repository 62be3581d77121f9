import Encounter.Proofs.Listeners

/-!
# All subscriptions in one list

The listeners keep a list for each event that has subscribers. `Subscriptions` keeps one list of all
pairs of an event and a subscriber instead: a new pair comes last, and what is ended is taken out.
Both answer alike and say the same of every event, whatever is done to them (`listeners_as_pairs`).
One step is `Mirrors.act`, where each operation comes down to one rule about the projection of the
pairs on an event (`heard_keep`).

No event is left with an empty list (`Filled`), so the events with a list are those of the pairs.
-/

set_option autoImplicit false

namespace Encounter

/-- All subscriptions in one list, and the codes of the handlers. -/
structure Subscriptions (κ : Type) where
  pairs : List (String × Subscriber)
  codes : List (HandlerId × κ)
  /-- How many handlers have been stored so far. -/
  stored : Nat

namespace Listeners

variable {κ : Type}

/-- What is done to listeners. -/
inductive Act (κ : Type) where
  | subscribe (event : String) (s : Subscriber)
  | unsubscribe (event : String) (s : Subscriber)
  | unsubscribeAll (s : Subscriber)
  | addHandler (code : κ)
  | removeHandler (id : HandlerId)
  | reset

/-- What is answered to that. -/
inductive Answer where
  /-- Whether the subscription is new. -/
  | subscribed (new : Bool)
  /-- The number of the handler. -/
  | stored (id : HandlerId)
  | done
  deriving DecidableEq, Repr

/-- Does one thing to the listeners. -/
def act (l : Listeners κ) : Act κ → Answer × Listeners κ
  | .subscribe event s => ((.subscribed (l.subscribe event s).1), (l.subscribe event s).2)
  | .unsubscribe event s => (.done, l.unsubscribe event s)
  | .unsubscribeAll s => (.done, l.unsubscribeAll s)
  | .addHandler code => (.stored (l.addHandler code).1, (l.addHandler code).2)
  | .removeHandler id => (.done, l.removeHandler id)
  | .reset => (.done, l.reset)

def Act.isAddition : Act κ → Bool
  | .addHandler _ => true
  | _ => false

/-- Does one thing after the other, and gives all answers. -/
def runAll {τ : Type} (step : τ → Act κ → Answer × τ) : List (Act κ) → τ → List Answer × τ
  | [], state => ([], state)
  | a :: acts, state =>
    let (answer, state) := step state a
    let (answers, state) := runAll step acts state
    (answer :: answers, state)

/-- The number that was given to a handler. -/
def Answer.handler? : Answer → Option HandlerId
  | .stored id => some id
  | _ => none

end Listeners

open Listeners (Act Answer runAll)

namespace Subscriptions

variable {κ : Type}

/-- Nobody listens. -/
def empty : Subscriptions κ :=
  ⟨[], [], 0⟩

/-- Ends the subscriptions that are not among those to be kept. -/
def keep (b : Subscriptions κ) (kept : String × Subscriber → Bool) : Subscriptions κ :=
  { b with pairs := b.pairs.filter kept }

/-- Does one thing to the subscriptions. A new pair comes behind the others; one that is there keeps
its place. -/
def act (b : Subscriptions κ) : Act κ → Answer × Subscriptions κ
  | .subscribe event s =>
    if (event, s) ∈ b.pairs then (.subscribed false, b)
    else (.subscribed true, { b with pairs := b.pairs ++ [(event, s)] })
  | .unsubscribe event s => (.done, b.keep (· ≠ (event, s)))
  | .unsubscribeAll s => (.done, b.keep (·.2 ≠ s))
  | .addHandler code =>
    let id : HandlerId := ⟨.ofNat b.stored⟩
    (.stored id, { b with codes := b.codes ++ [(id, code)], stored := b.stored + 1 })
  | .removeHandler id =>
    (.done, { b.keep (·.2 ≠ .handler id) with codes := b.codes.filter (·.1 ≠ id) })
  | .reset => (.done, b.keep fun _ => false)

/-- Those who listen to an event. -/
def heard (b : Subscriptions κ) (event : String) : List Subscriber :=
  (b.pairs.filter (·.1 = event)).map (·.2)

variable {b : Subscriptions κ} {event other : String} {s : Subscriber}

theorem mem_heard : s ∈ b.heard event ↔ (event, s) ∈ b.pairs := by
  simp [heard]

/-- Ending subscriptions ends those of each event, and keeps the others in order. -/
theorem heard_keep {kept : String × Subscriber → Bool} {keptHere : Subscriber → Bool}
    (h : ∀ s, kept (event, s) = keptHere s) :
    (b.keep kept).heard event = (b.heard event).filter keptHere := by
  rw [heard, keep, heard, List.filter_map, List.filter_filter, List.filter_filter]
  refine congrArg _ (List.filter_congr fun pair _ => ?_)
  by_cases he : pair.1 = event
  · subst he
    simp [h]
  · simp [he]

/-- An event of which every subscription is kept has the listeners it had. -/
theorem heard_keep_all {kept : String × Subscriber → Bool} (h : ∀ s, kept (event, s) = true) :
    (b.keep kept).heard event = b.heard event := by
  rw [heard_keep h, List.filter_true]

end Subscriptions

/-! ## Empty lists -/

namespace Listeners

variable {κ : Type} {l : Listeners κ} {event : String} {s : Subscriber} {id : HandlerId}

/-- No event has an empty list. -/
def Filled (l : Listeners κ) : Prop :=
  ∀ event : String, l.lists[event]? ≠ some []

theorem without?_ne_nil (list : List Subscriber) : without? s list ≠ some [] := by
  unfold without?
  dsimp only
  split
  · nofun
  · rename_i h
    exact fun he => h (by rw [Option.some.inj he]; rfl)

theorem bind_without?_ne_nil (lists : Option (List Subscriber)) :
    lists.bind (without? s) ≠ some [] := by
  cases lists with
  | none => exact (Option.some_ne_none []).symm
  | some list => exact without?_ne_nil list

theorem Filled.subscribe (h : l.Filled) : (l.subscribe event s).2.Filled := by
  unfold Listeners.subscribe
  split
  · exact h
  · intro other
    simp only [Std.ExtTreeMap.getElem?_insert, Std.LawfulEqCmp.compare_eq_iff_eq]
    split
    · simp
    · exact h other

theorem Filled.unsubscribe (h : l.Filled) : (l.unsubscribe event s).Filled := by
  intro other
  simp only [Listeners.unsubscribe, Std.ExtTreeMap.getElem?_alter,
    Std.LawfulEqCmp.compare_eq_iff_eq]
  split
  · exact bind_without?_ne_nil _
  · exact h other

theorem Filled.unsubscribeAll (l : Listeners κ) (s : Subscriber) : (l.unsubscribeAll s).Filled := by
  intro other
  simp only [Listeners.unsubscribeAll, Std.ExtTreeMap.getElem?_filterMap']
  exact bind_without?_ne_nil _

/-- Where no list is empty, the events with a list are those with subscribers. -/
theorem Filled.mem_events (h : l.Filled) : event ∈ l.events ↔ l.subscribers event ≠ [] := by
  rw [events, Std.ExtTreeMap.mem_keys, Std.ExtTreeMap.mem_iff_isSome_getElem?, subscribers]
  cases hl : l.lists[event]? with
  | none => simp
  | some list =>
    have hne : list ≠ [] := fun he => h event (he ▸ hl)
    simp [hne]

theorem pairwise_events (l : Listeners κ) : l.events.Pairwise (· < ·) := by
  have h : l.events.Pairwise (compare · · = .lt) := Std.ExtTreeMap.ordered_keys
  exact h.imp compareOfLessAndEq_eq_lt.1

/-! ## Both pictures -/

/-- The list of pairs shows what the listeners keep event by event. -/
structure Mirrors (l : Listeners κ) (b : Subscriptions κ) : Prop where
  once : b.pairs.Nodup
  heard : ∀ event, l.subscribers event = b.heard event
  filled : l.Filled
  codes : ∀ id code, l.handler? id = some code ↔ (id, code) ∈ b.codes
  /-- Handlers are numbered from zero on. -/
  given : ∀ id code, (id, code) ∈ b.codes → id.raw.toNat < b.stored
  next : l.nextHandler.toNat = b.stored

namespace Mirrors

variable {b : Subscriptions κ}

theorem empty : (Listeners.empty : Listeners κ).Mirrors .empty where
  once := List.nodup_nil
  heard _ := subscribers_empty
  filled event := by simp [Listeners.empty]
  codes id code := by simp [Listeners.empty, handler?, Subscriptions.empty]
  given _ _ h := by cases h
  next := rfl

theorem isSubscribed_iff (h : l.Mirrors b) :
    l.isSubscribed event s = true ↔ (event, s) ∈ b.pairs := by
  rw [Listeners.isSubscribed_iff, h.heard, Subscriptions.mem_heard]

theorem mem_events (h : l.Mirrors b) : event ∈ l.events ↔ ∃ s, (event, s) ∈ b.pairs := by
  rw [h.filled.mem_events, h.heard, ← List.length_pos_iff,
    List.length_pos_iff_exists_mem]
  exact exists_congr fun _ => Subscriptions.mem_heard

/-- Subscriptions are ended in both pictures. -/
theorem keep (h : l.Mirrors b) {l' : Listeners κ} {kept : String × Subscriber → Bool}
    (hheard : ∀ event, l'.subscribers event = (b.keep kept).heard event) (hfilled : l'.Filled)
    (hhandlers : l'.handlers = l.handlers) (hnext : l'.nextHandler = l.nextHandler) :
    l'.Mirrors (b.keep kept) where
  once := h.once.filter _
  heard := hheard
  filled := hfilled
  codes id code := by
    rw [handler?, hhandlers]
    exact h.codes id code
  given := h.given
  next := hnext ▸ h.next

theorem subscribe (h : l.Mirrors b) (event : String) (s : Subscriber) :
    (l.act (.subscribe event s)).1 = (b.act (.subscribe event s)).1 ∧
      (l.act (.subscribe event s)).2.Mirrors (b.act (.subscribe event s)).2 := by
  by_cases hin : (event, s) ∈ b.pairs
  · simp only [Listeners.act, Subscriptions.act, Listeners.subscribe, h.isSubscribed_iff.2 hin, hin,
      if_true]
    exact ⟨trivial, h⟩
  · have hout : l.isSubscribed event s = false := by
      rw [← Bool.not_eq_true, h.isSubscribed_iff]
      exact hin
    have hnew : (l.subscribe event s).1 = true := by simp [Listeners.subscribe, hout]
    simp only [Listeners.act, Subscriptions.act, hin, if_false, hnew, true_and]
    have hkept : (l.subscribe event s).2.handlers = l.handlers ∧
        (l.subscribe event s).2.nextHandler = l.nextHandler := by
      simp [Listeners.subscribe, hout]
    refine ⟨?_, fun other => ?_, h.filled.subscribe, fun id code => ?_, h.given, hkept.2 ▸ h.next⟩
    · exact h.once.append (List.nodup_singleton _) (by simpa using hin)
    · simp only [subscribers_subscribe, h.heard, Subscriptions.mem_heard]
      by_cases he : event = other
      · subst he
        simp [Subscriptions.heard, hin]
      · simp [Subscriptions.heard, he]
    · rw [handler?, hkept.1]
      exact h.codes id code

theorem addHandler (h : l.Mirrors b) (code : κ) (hlt : b.stored + 1 < UInt32.size) :
    (l.act (.addHandler code)).1 = (b.act (.addHandler code)).1 ∧
      (l.act (.addHandler code)).2.Mirrors (b.act (.addHandler code)).2 := by
  have hid : l.nextHandler = .ofNat b.stored := by rw [← h.next, UInt32.ofNat_toNat]
  have hnew : ∀ code', ((⟨.ofNat b.stored⟩ : HandlerId), code') ∉ b.codes := by
    intro code' hin
    have hraw := h.given _ _ hin
    rw [← hid, h.next] at hraw
    exact Nat.lt_irrefl _ hraw
  refine ⟨by rw [Listeners.act, Subscriptions.act, ← hid]; rfl, ?_⟩
  refine ⟨h.once, h.heard, h.filled, fun id code' => ?_, fun id code' hin => ?_, ?_⟩
  · show (l.addHandler code).2.handler? id = some code' ↔ (id, code') ∈ b.codes ++ [(_, code)]
    rw [handler?_addHandler, hid, List.mem_append, List.mem_singleton, Prod.mk.injEq]
    split
    · rename_i he
      subst he
      simp [hnew, eq_comm]
    · rename_i hne
      simp [h.codes, Ne.symm hne]
  · rcases List.mem_append.1 hin with hin | hin
    · exact Nat.lt_succ_of_lt (h.given _ _ hin)
    · cases List.mem_singleton.1 hin
      show (UInt32.ofNat b.stored).toNat < b.stored + 1
      rw [← hid, h.next]
      exact Nat.lt_succ_self _
  · show (l.nextHandler + 1).toNat = b.stored + 1
    rw [UInt32.toNat_add, UInt32.toNat_one, h.next]
    exact Nat.mod_eq_of_lt hlt

theorem removeHandler (h : l.Mirrors b) (id : HandlerId) :
    (l.act (.removeHandler id)).2.Mirrors (b.act (.removeHandler id)).2 := by
  refine ⟨h.once.filter _, fun event => ?_, Filled.unsubscribeAll _ _, fun i code => ?_,
    fun i code hin => h.given _ _ (List.mem_of_mem_filter hin), h.next⟩
  · refine (subscribers_removeHandler.trans ?_ : _ = (b.keep (·.2 ≠ .handler id)).heard event)
    rw [h.heard, Subscriptions.heard_keep fun _ => rfl]
  · show (l.removeHandler id).handler? i = some code ↔ (i, code) ∈ b.codes.filter (·.1 ≠ id)
    rw [handler?_removeHandler, List.mem_filter, decide_eq_true_eq, ← h.codes]
    split
    · rename_i he
      simp [he]
    · rename_i hne
      simp [Ne.symm hne]

/-- Whatever is done, both answer alike and go on to show the same. -/
theorem act (h : l.Mirrors b) (a : Act κ)
    (hlt : b.stored + (if a.isAddition then 1 else 0) < UInt32.size) :
    (l.act a).1 = (b.act a).1 ∧ (l.act a).2.Mirrors (b.act a).2 := by
  cases a with
  | subscribe event s => exact h.subscribe event s
  | unsubscribe event s =>
    refine ⟨rfl, h.keep (fun other => ?_) h.filled.unsubscribe rfl rfl⟩
    show (l.unsubscribe event s).subscribers other = _
    rw [subscribers_unsubscribe, h.heard]
    by_cases he : event = other
    · subst he
      rw [if_pos rfl]
      exact (Subscriptions.heard_keep fun s' => by simp).symm
    · rw [if_neg he]
      exact (Subscriptions.heard_keep_all fun s' => by simp [Ne.symm he]).symm
  | unsubscribeAll s =>
    refine ⟨rfl, h.keep (fun other => ?_) (Filled.unsubscribeAll l s) rfl rfl⟩
    show (l.unsubscribeAll s).subscribers other = _
    rw [subscribers_unsubscribeAll, h.heard, Subscriptions.heard_keep fun _ => rfl]
  | addHandler code => exact h.addHandler code hlt
  | removeHandler id => exact ⟨rfl, h.removeHandler id⟩
  | reset =>
    refine ⟨rfl, h.keep (fun event => ?_) (fun event => ?_) rfl rfl⟩
    · show (Listeners.reset l).subscribers event = _
      rw [subscribers_reset, Subscriptions.heard_keep fun _ => rfl]
      exact (List.filter_false _).symm
    · show (Listeners.reset l).lists[event]? ≠ _
      simp [Listeners.reset]

end Mirrors

/-! ## Whole runs -/

variable {b : Subscriptions κ}

/-- Handlers are counted on. -/
theorem stored_act (b : Subscriptions κ) (a : Act κ) :
    (b.act a).2.stored = b.stored + if a.isAddition then 1 else 0 := by
  cases a with
  | subscribe event s =>
    simp only [Subscriptions.act]
    split <;> rfl
  | _ => rfl

theorem handler?_act (b : Subscriptions κ) (a : Act κ) :
    (b.act a).1.handler? = if a.isAddition then some ⟨.ofNat b.stored⟩ else none := by
  cases a with
  | subscribe event s =>
    simp only [Subscriptions.act]
    split <;> rfl
  | _ => rfl

/-- The numbers of the handlers follow each other. -/
theorem handlers_runAll (acts : List (Act κ)) (b : Subscriptions κ) :
    (runAll Subscriptions.act acts b).1.filterMap Answer.handler? =
      (List.range' b.stored (acts.countP Act.isAddition)).map fun n => ⟨.ofNat n⟩ := by
  induction acts generalizing b with
  | nil => rfl
  | cons a acts ih =>
    rw [runAll, List.filterMap_cons, ih, stored_act, handler?_act]
    by_cases ha : a.isAddition
    · rw [List.countP_cons_of_pos ha, List.range'_succ, if_pos ha, if_pos ha]
      rfl
    · rw [List.countP_cons_of_neg ha, if_neg ha, if_neg ha]
      rfl

theorem Mirrors.runAll (h : l.Mirrors b) (acts : List (Act κ))
    (hlt : b.stored + acts.countP Act.isAddition < UInt32.size) :
    (runAll Listeners.act acts l).1 = (runAll Subscriptions.act acts b).1 ∧
      (runAll Listeners.act acts l).2.Mirrors (runAll Subscriptions.act acts b).2 := by
  induction acts generalizing l b with
  | nil => exact ⟨rfl, h⟩
  | cons a acts ih =>
    rw [List.countP_cons] at hlt
    obtain ⟨hanswer, hact⟩ := h.act a (by omega)
    obtain ⟨hanswers, hacts⟩ := ih hact (by rw [stored_act]; omega)
    exact ⟨congrArg₂ List.cons hanswer hanswers, hacts⟩

/-- Below the largest number, no handler number is given twice. -/
theorem nodup_handlers (acts : List (Act κ)) (hlt : acts.countP Act.isAddition < UInt32.size) :
    ((runAll Subscriptions.act acts .empty).1.filterMap Answer.handler?).Nodup := by
  rw [handlers_runAll, show (Subscriptions.empty : Subscriptions κ).stored = 0 from rfl]
  refine List.Nodup.map_on (fun m hm n hn he => ?_) List.nodup_range'
  have heq : UInt32.ofNat m = UInt32.ofNat n := congrArg HandlerId.raw he
  have below : ∀ k ∈ List.range' 0 (acts.countP Act.isAddition), k < UInt32.size := by
    intro k hk
    have hk := (List.mem_range'_1.1 hk).2
    omega
  rw [← UInt32.toNat_ofNat_of_lt' (below m hm), heq, UInt32.toNat_ofNat_of_lt' (below n hn)]

/-- Listeners are a list of pairs: with fewer handlers than there are numbers, listeners answer
everything that is done to them as the list of pairs does. Afterwards no pair is there twice, the
subscribers of an event are its pairs, in order, the events are those of the pairs, in order, none
with an empty list, and the handlers are those that have been stored and not removed. No handler
number has been given twice. -/
theorem listeners_as_pairs (acts : List (Act κ))
    (hlt : acts.countP Act.isAddition < UInt32.size) :
    let answers := (runAll Listeners.act acts .empty).1
    let l := (runAll Listeners.act acts .empty).2
    let b := (runAll Subscriptions.act acts .empty).2
    answers = (runAll Subscriptions.act acts .empty).1 ∧
      (answers.filterMap Answer.handler?).Nodup ∧ b.pairs.Nodup ∧
      (∀ event, l.subscribers event = (b.pairs.filter (·.1 = event)).map (·.2) ∧
        (∀ s, l.isSubscribed event s = true ↔ (event, s) ∈ b.pairs) ∧
        (event ∈ l.events ↔ ∃ s, (event, s) ∈ b.pairs) ∧ l.lists[event]? ≠ some []) ∧
      l.events.Pairwise (· < ·) ∧
      ∀ id code, l.handler? id = some code ↔ (id, code) ∈ b.codes := by
  obtain ⟨hanswers, h⟩ := Mirrors.empty.runAll acts (by simpa [Subscriptions.empty])
  refine ⟨hanswers, ?_, h.once, fun event => ⟨h.heard event, fun s => h.isSubscribed_iff,
    h.mem_events, h.filled event⟩, pairwise_events _, h.codes⟩
  show ((runAll Listeners.act acts .empty).1.filterMap Answer.handler?).Nodup
  rw [hanswers]
  exact nodup_handlers acts hlt

/-- Two triggers and a handler; the first trigger comes again, and the handler is dropped. -/
def comingAndGoing : List (Act Unit) :=
  [.subscribe "E" (.trigger ⟨2⟩), .subscribe "E" (.trigger ⟨1⟩), .subscribe "E" (.trigger ⟨2⟩),
    .addHandler (), .subscribe "A" (.handler ⟨0⟩), .unsubscribe "E" (.trigger ⟨2⟩),
    .subscribe "E" (.trigger ⟨2⟩), .removeHandler ⟨0⟩, .addHandler ()]

theorem listeners_as_pairs_comingAndGoing :
    comingAndGoing.countP Act.isAddition < UInt32.size ∧
      (runAll Listeners.act comingAndGoing .empty).1 =
        [.subscribed true, .subscribed true, .subscribed false, .stored ⟨0⟩, .subscribed true,
          .done, .subscribed true, .done, .stored ⟨1⟩] ∧
      (runAll Listeners.act comingAndGoing .empty).2.subscribers "E" =
        [.trigger ⟨1⟩, .trigger ⟨2⟩] ∧
      "A" ∉ (runAll Listeners.act comingAndGoing .empty).2.events := by
  obtain ⟨hanswers, -, -, hevents, -⟩ := listeners_as_pairs comingAndGoing (by decide)
  have hpairs : (runAll Subscriptions.act comingAndGoing .empty).2.pairs =
      [("E", .trigger ⟨1⟩), ("E", .trigger ⟨2⟩)] := by decide
  refine ⟨by decide, hanswers.trans (by decide), ?_, fun hmem => ?_⟩
  · rw [(hevents "E").1, hpairs]
    decide
  · obtain ⟨s, hs⟩ := (hevents "A").2.2.1.1 hmem
    rw [hpairs] at hs
    simp at hs

end Listeners

end Encounter
