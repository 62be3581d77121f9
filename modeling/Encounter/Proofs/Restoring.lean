import Encounter.Dice.WordSource

/-!
# Saved dice roll on

Dice that are saved and restored roll what the dice that were saved would have rolled, wherever
they are cut: within a block, between the two rolls of a d20, after words that were drawn and
refused.

* `RollerOps.Simulates`: one kind of dice follows another, related pair by related pair;
  `outcomes_eq` is the run lemma.
* `WordSource.ops_simulates`: dice over a generator that serves follow the `Roller` at its place.
  The induction is on the words that are refused (`face_follows`).
* `restored_dice_roll_on`: the statement for any generator that serves, any origin, and any throws
  before and after the cut.
* `Reservoir.source_serves`: a generator that makes four blocks at a time serves. Its place is
  `blockPlace`, counted modulo the period of the stream.
-/

set_option autoImplicit false

namespace Encounter

/-! ## Dice that follow other dice -/

namespace RollerOps

variable {D E : Type} {d : RollerOps D} {e : RollerOps E} {R : D → E → Prop}

/-- The same roll, and dice that are related. -/
def Alike (R : D → E → Prop) (a : Int64 × D) (b : Int64 × E) : Prop :=
  a.1 = b.1 ∧ R a.2 b.2

theorem Alike.elim {a : Int64 × D} {b : Int64 × E} (h : Alike R a b) :
    ∃ roll x y, a = (roll, x) ∧ b = (roll, y) ∧ R x y :=
  ⟨a.1, a.2, b.2, rfl, Prod.ext h.1.symm rfl, h.2⟩

/-- Dice of one kind follow dice of another: what the two are made of the same way is related, and
related dice are saved alike and roll alike. -/
structure Simulates (d : RollerOps D) (e : RollerOps E) (R : D → E → Prop) : Prop where
  new : ∀ seed, R (d.new seed) (e.new seed)
  ofState : ∀ s, R (d.ofState s) (e.ofState s)
  state : ∀ {x y}, R x y → d.state x = e.state y
  rollDie : ∀ {x y}, R x y → ∀ sides, Alike R (d.rollDie x sides) (e.rollDie y sides)
  rollD20 : ∀ {x y}, R x y → ∀ mode, Alike R (d.rollD20 x mode) (e.rollD20 y mode)

namespace Simulates

theorem make (h : d.Simulates e R) (origin : RollerOrigin) :
    R (d.make origin) (e.make origin) := by
  cases origin with
  | fresh seed => exact h.new seed
  | saved s => exact h.ofState s

theorem throw (h : d.Simulates e R) {x : D} {y : E} (hR : R x y) (t : Throw) :
    Alike R (d.throw x t) (e.throw y t) := by
  cases t with
  | die sides => exact h.rollDie hR sides
  | d20 mode => exact h.rollD20 hR mode

theorem thrown (h : d.Simulates e R) (ts : List Throw) :
    ∀ {x : D} {y : E}, R x y → R (d.thrown x ts) (e.thrown y ts) := by
  induction ts with
  | nil => exact id
  | cons t ts ih => exact fun hR => ih (h.throw hR t).2

/-- Related dice show the same, throw by throw. -/
theorem outcomes_eq (h : d.Simulates e R) (ts : List Throw) :
    ∀ {x : D} {y : E}, R x y → d.outcomes x ts = e.outcomes y ts := by
  induction ts with
  | nil => intros; rfl
  | cons t ts ih =>
    intro x y hR
    obtain ⟨hroll, hnext⟩ := h.throw hR t
    simp only [outcomes, hroll, h.state hnext, ih hnext]

end Simulates

end RollerOps

namespace Roller

@[simp] theorem ofState_state (r : Roller) : ofState r.state = r := by
  simp only [ofState, state, atPlace, Nat.mod_eq_of_lt r.position_lt]

/-- The stream has `2 ^ 68` words. -/
theorem state_ofState (s : RollerState) :
    (ofState s).state = { s with wordPosition := s.wordPosition % 0x100000000000000000 } :=
  rfl

end Roller

/-! ## Dice over a generator -/

namespace WordSource

open RollerOps (Alike)

variable {G : Type} {src : WordSource G} {At : UInt64 → Nat → G → Prop}

/-- Dice over a generator stand where a roller stands. -/
def Follows (At : UInt64 → Nat → G → Prop) (c : SourceRoller G) (r : Roller) : Prop :=
  c.seed = r.seed ∧ At r.seed r.position c.words

theorem next_follows (h : src.Serves At) {g : G} {r : Roller} (hg : At r.seed r.position g) :
    (src.next g).1 = r.draw.1 ∧ At r.draw.2.seed r.draw.2.position (src.next g).2 :=
  ⟨h.word hg, h.next hg⟩

/-- The search for a face takes the same words, however many are refused. -/
theorem face_follows (h : src.Serves At) (sides : UInt32) (tries : Nat) :
    ∀ {g : G} {r : Roller}, At r.seed r.position g →
      (src.face sides tries g).1 = (Roller.face sides tries r).1 ∧
        (Roller.face sides tries r).2.seed = r.seed ∧
        At r.seed (Roller.face sides tries r).2.position (src.face sides tries g).2 := by
  induction tries with
  | zero => exact fun hg => ⟨rfl, rfl, hg⟩
  | succ tries ih =>
    intro g r hg
    obtain ⟨hword, hnext⟩ := next_follows h hg
    simp only [face, Roller.face, hword]
    split
    · exact ⟨rfl, rfl, hnext⟩
    · exact ih hnext

theorem rollDie_follows (h : src.Serves At) {c : SourceRoller G} {r : Roller}
    (hc : Follows At c r) (sides : UInt32) :
    Alike (Follows At) (src.rollDie c sides) (r.rollDie sides) := by
  unfold rollDie Roller.rollDie
  split
  · exact ⟨rfl, hc⟩
  · obtain ⟨hface, hseed, hplace⟩ := face_follows h sides Keystream.period hc.2
    refine ⟨?_, hc.1.trans hseed.symm, ?_⟩
    · simp only [hface]
    · simpa only [hseed] using hplace

theorem rollD20_follows (h : src.Serves At) {c : SourceRoller G} {r : Roller}
    (hc : Follows At c r) (mode : RollMode) :
    Alike (Follows At) (src.rollD20 c mode) (r.rollD20 mode) := by
  obtain ⟨first, c₁, r₁, hfirst, hfirst', hc₁⟩ := (rollDie_follows h hc 20).elim
  obtain ⟨second, c₂, r₂, hsecond, hsecond', hc₂⟩ := (rollDie_follows h hc₁ 20).elim
  cases mode with
  | normal => exact rollDie_follows h hc 20
  | advantage =>
    simp only [rollD20, Roller.rollD20, hfirst, hfirst', hsecond, hsecond']
    exact ⟨rfl, hc₂⟩
  | disadvantage =>
    simp only [rollD20, Roller.rollD20, hfirst, hfirst', hsecond, hsecond']
    exact ⟨rfl, hc₂⟩

/-- Dice over a generator that serves follow the roller. -/
theorem ops_simulates (h : src.Serves At) : src.ops.Simulates Roller.ops (Follows At) where
  new seed := ⟨rfl, h.ofSeed seed⟩
  ofState s := ⟨rfl, h.seek (h.ofSeed s.seed) s.wordPosition⟩
  state hc := by simp only [ops, state, Roller.ops, Roller.state, hc.1, h.position hc.2]
  rollDie := rollDie_follows h
  rollD20 := rollD20_follows h

end WordSource

/-! ## A generator that works ahead -/

namespace Reservoir

/-- The place of a word, counted from the start of a block, modulo the period of the stream. -/
def blockPlace (start : UInt64) (i : Nat) : Nat :=
  (start + UInt64.ofNat (i / 16)).toNat * 16 + i % 16

theorem blockPlace_eq (start : UInt64) (i : Nat) :
    blockPlace start i = (start.toNat * 16 + i) % Keystream.period := by
  have hstart := start.toNat_lt
  simp only [blockPlace, Keystream.period, UInt64.toNat_add, UInt64.toNat_ofNat']
  omega

theorem blockPlace_succ (start : UInt64) (i : Nat) :
    blockPlace start (i + 1) = (blockPlace start i + 1) % Keystream.period := by
  simp only [blockPlace_eq, Nat.mod_add_mod, Nat.add_assoc]

/-- Four blocks further on. -/
theorem blockPlace_next (counter : UInt64) :
    blockPlace counter 0 = blockPlace (counter - 4) 64 := by
  have hcounter := counter.toNat_lt
  simp only [blockPlace_eq, Keystream.period, UInt64.toNat_sub, UInt64.reduceToNat]
  omega

theorem blockPlace_ofNat (place : Nat) :
    blockPlace (UInt64.ofNat (place / 16)) (place % 16) = place % Keystream.period := by
  simp only [blockPlace_eq, Keystream.period, UInt64.toNat_ofNat']
  omega

/-- Four blocks hold the words of their places. -/
theorem getElem_fourBlocks (seed start : UInt64) {i : Nat} (h : i < 64) :
    (fourBlocks seed start)[i] = Keystream.word seed (blockPlace start i) := by
  have hblock : blockPlace start i / 16 = (start + UInt64.ofNat (i / 16)).toNat := by
    unfold blockPlace
    omega
  have hword : blockPlace start i % 16 = i % 16 := by
    unfold blockPlace
    omega
  simp only [fourBlocks, Vector.getElem_ofFn, Keystream.word, hblock, hword, UInt64.ofNat_toNat]

/-- A reservoir stands at a place of the stream of a seed: the words that are not spent are those
of the four blocks before its counter. -/
structure At (seed : UInt64) (place : Nat) (r : Reservoir) : Prop where
  seed_eq : r.seed = seed
  place_eq : blockPlace (r.counter - 4) r.taken = place
  ready_eq : ∀ i (h : i < 64), r.taken ≤ i → r.ready[i] = (fourBlocks seed (r.counter - 4))[i]

variable {seed : UInt64} {place : Nat} {r : Reservoir}

theorem at_ofSeed (seed : UInt64) : At seed 0 (ofSeed seed) where
  seed_eq := rfl
  place_eq := (blockPlace_next 0).symm
  ready_eq _ h hi := absurd hi (Nat.not_le.mpr h)

/-- New blocks stand at the counter that they were made of. -/
theorem at_refill (hseed : r.seed = seed) {taken : Nat} (h : taken ≤ 64) :
    At seed (blockPlace r.counter taken) (r.refill taken h) where
  seed_eq := hseed
  place_eq := by simp only [refill, UInt64.add_sub_cancel]
  ready_eq i h _ := by simp only [refill, UInt64.add_sub_cancel, hseed]

theorem at_next (hr : At seed place r) :
    r.next.1 = Keystream.word seed place ∧ At seed ((place + 1) % Keystream.period) r.next.2 := by
  obtain ⟨hseed, rfl, hready⟩ := hr
  unfold next
  split
  next hleft =>
    refine ⟨?_, hseed, blockPlace_succ _ _, ?_⟩
    · rw [hready _ hleft (Nat.le_refl _), getElem_fourBlocks]
    · exact fun i h hi => hready i h (Nat.le_of_succ_le hi)
  next hspent =>
    -- All 64 words are spent, so the place is the start of the blocks that are made now.
    have hplace : blockPlace (r.counter - 4) r.taken = blockPlace r.counter 0 := by
      rw [blockPlace_next, Nat.le_antisymm r.taken_le (Nat.not_lt.mp hspent)]
    rw [hplace, ← blockPlace_succ]
    refine ⟨?_, at_refill hseed (by decide)⟩
    simp only [refill, hseed, getElem_fourBlocks]

theorem at_seek (hr : At seed place r) (target : Nat) :
    At seed (target % Keystream.period) (r.seek target) := by
  rw [← blockPlace_ofNat]
  exact at_refill (r := { r with counter := UInt64.ofNat (target / 16) }) hr.seed_eq _

theorem source_serves : source.Serves At where
  ofSeed := at_ofSeed
  word hr := (at_next hr).1
  next hr := (at_next hr).2
  position hr := hr.place_eq
  seek := at_seek

end Reservoir

/-! ## Restoring -/

/-- Dice over a generator that serves, made in either way and thrown any number of times, are
restored from their saved state without a trace: from then on the restored dice show what the saved
ones show, roll by roll and state by state, which is what the `Roller` in the engine shows, and the
`Roller` restored from the same state. A state that was saved anywhere is restored at its place
modulo `2 ^ 68`. -/
theorem restored_dice_roll_on {G : Type} (src : WordSource G) {At : UInt64 → Nat → G → Prop}
    (h : src.Serves At) (origin : RollerOrigin) (before after : List Throw) :
    let dice := src.ops.thrown (src.ops.make origin) before
    let roller := Roller.ops.thrown (Roller.ops.make origin) before
    src.state (src.ofState (src.state dice)) = src.state dice ∧
    src.ops.outcomes (src.ofState (src.state dice)) after = src.ops.outcomes dice after ∧
    src.ops.outcomes dice after = Roller.ops.outcomes roller after ∧
    Roller.ops.outcomes (Roller.ofState roller.state) after = Roller.ops.outcomes roller after ∧
    ∀ s : RollerState,
      src.state (src.ofState s) =
        { s with wordPosition := s.wordPosition % 0x100000000000000000 } ∧
      (Roller.ofState s).state =
        { s with wordPosition := s.wordPosition % 0x100000000000000000 } := by
  intro dice roller
  have sim := WordSource.ops_simulates h
  have hdice : WordSource.Follows At dice roller := sim.thrown before (sim.make origin)
  have hstate : src.state dice = roller.state := sim.state hdice
  have hrestored : WordSource.Follows At (src.ofState roller.state) roller := by
    have hr := sim.ofState roller.state
    rwa [show Roller.ops.ofState roller.state = roller from roller.ofState_state] at hr
  have halike := sim.outcomes_eq after hdice
  refine ⟨?_, ?_, halike, ?_, fun s => ⟨?_, Roller.state_ofState s⟩⟩
  · rw [hstate]
    exact sim.state hrestored
  · rw [hstate, halike]
    exact sim.outcomes_eq after hrestored
  · rw [Roller.ofState_state]
  · exact sim.state (sim.ofState s)

/-- A die of `2 ^ 31 + 1` sides refuses about every other word. Restored three words before the
end of its four blocks, a reservoir of seed 42 refuses one word there and one of the next blocks. -/
theorem restored_reservoir_rolls_on :
    let dice := Reservoir.source.ops.thrown
      (Reservoir.source.ops.make (.saved ⟨42, 0x10000000000000003d⟩))
      (List.replicate 3 (.die 2147483649))
    Reservoir.source.Serves Reservoir.At ∧
    (Reservoir.source.state dice).wordPosition = 66 ∧
    Reservoir.source.ops.outcomes (Reservoir.source.ofState (Reservoir.source.state dice))
        [.d20 .advantage, .die 6] =
      Reservoir.source.ops.outcomes dice [.d20 .advantage, .die 6] :=
  ⟨Reservoir.source_serves, by decide +kernel,
    (restored_dice_roll_on Reservoir.source Reservoir.source_serves
      (.saved ⟨42, 0x10000000000000003d⟩) (List.replicate 3 (.die 2147483649))
      [.d20 .advantage, .die 6]).2.1⟩

end Encounter
