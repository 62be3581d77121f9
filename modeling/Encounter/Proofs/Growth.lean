import Encounter.Proofs.Following
import Encounter.Proofs.RoundTrip
import Encounter.Trigger.Directory

/-!
# Vocabularies only grow

An entry that is accepted adds one maker or one name, under a tag or a name that had none. So a
vocabulary keeps what it has, whatever is entered later (`Vocabulary.extends_enterAll`), and a
record that reads goes on to read as the same trigger, with the same code
(`Vocabulary.Extends.readChain`).

A maker that is accepted is the one that reads the records of its tag
(`Vocabulary.accepted_types_read`), but for one tag: a condition is taken for a skill check before
its tag is looked up, and the catalog of conditions accepts `"SkillCheck"` all the same.
-/

set_option autoImplicit false

namespace Encounter

/-! ## Registering in a catalog -/

namespace Catalog

variable {α : Type} {c c' : Catalog α} {tag : String} {maker : Maker α}

theorem register_eq_ok : c.register tag maker = .ok c' ↔ tag ≠ functionTag ∧ tag ∉ c.tags ∧
    c' = { c with makers := c.makers ++ [(tag, maker)] } := by
  by_cases hf : tag = functionTag <;> by_cases ht : tag ∈ c.tags <;>
    simp [register, contains, hf, ht, eq_comm]

theorem lookup_eq_none : c.makers.lookup tag = none ↔ tag ∉ c.tags := by
  rw [List.lookup_eq_none_iff, tags, List.mem_map]
  constructor
  · rintro h ⟨entry, hmem, rfl⟩
    simpa using h entry hmem
  · rintro h entry hmem
    have hne : tag ≠ entry.1 := fun he => h ⟨entry, hmem, he.symm⟩
    simpa using hne

/-- A maker is found as soon as it is registered. -/
theorem lookup_of_register (h : c.register tag maker = .ok c') :
    c'.makers.lookup tag = some maker := by
  obtain ⟨-, ht, rfl⟩ := register_eq_ok.1 h
  simp [List.lookup_append, lookup_eq_none.2 ht]

end Catalog

/-! ## What an entry adds -/

namespace Functions

variable {κ : Type} {f f' : Functions κ} {name : String} {code : κ}

theorem addCondition_eq_ok {c : Condition κ} : f.addCondition name code = .ok (c, f') ↔
    f.conditions[name]? = none ∧ c = .function name code ∧
      f' = { f with conditions := f.conditions.insert name code } := by
  unfold addCondition
  rw [Std.ExtTreeMap.contains_eq_isSome_getElem?]
  cases f.conditions[name]? <;> simp [eq_comm]

theorem addReaction_eq_ok {r : Reaction κ} : f.addReaction name code = .ok (r, f') ↔
    f.reactions[name]? = none ∧ r = .function name code ∧
      f' = { f with reactions := f.reactions.insert name code } := by
  unfold addReaction
  rw [Std.ExtTreeMap.contains_eq_isSome_getElem?]
  cases f.reactions[name]? <;> simp [eq_comm]

/-- A new name takes nothing away. -/
theorem getElem?_insert_of_new {names : Std.ExtTreeMap String κ} {name' : String} {code' : κ}
    (hnew : names[name]? = none) (h : names[name']? = some code') :
    (names.insert name code)[name']? = some code' := by
  rw [Std.ExtTreeMap.getElem?_insert, if_neg, h]
  rw [Std.LawfulEqCmp.compare_eq_iff_eq]
  rintro rfl
  rw [hnew] at h
  cases h

end Functions

namespace Vocabulary

variable {κ : Type} {v v' base : Vocabulary κ} {entry : Entry κ} {record : Json}

/-- The vocabulary has all that another one has, with the same makers and the same code. -/
structure Extends (v base : Vocabulary κ) : Prop where
  conditions : v.conditions.Extends base.conditions
  reactions : v.reactions.Extends base.reactions
  conditionNames : ∀ (name : String) (code : κ), base.functions.conditions[name]? = some code →
    v.functions.conditions[name]? = some code
  reactionNames : ∀ (name : String) (code : κ), base.functions.reactions[name]? = some code →
    v.functions.reactions[name]? = some code

theorem Extends.refl (v : Vocabulary κ) : v.Extends v :=
  ⟨.refl _, .refl _, fun _ _ h => h, fun _ _ h => h⟩

theorem Extends.trans (h' : v'.Extends v) (h : v.Extends base) : v'.Extends base where
  conditions := h'.conditions.trans h.conditions
  reactions := h'.reactions.trans h.reactions
  conditionNames name code hc := h'.conditionNames name code (h.conditionNames name code hc)
  reactionNames name code hr := h'.reactionNames name code (h.reactionNames name code hr)

theorem Extends.knowsBuiltins (h : v.Extends builtin) : v.KnowsBuiltins :=
  ⟨h.conditions, h.reactions⟩

theorem extends_of_enter (h : v.enter entry = .ok v') : v'.Extends v := by
  cases entry with
  | conditionType tag maker =>
    obtain ⟨conditions, hr, rfl⟩ := map_eq_ok.1 h
    exact { Extends.refl v with conditions := Catalog.extends_of_register hr }
  | reactionType tag maker =>
    obtain ⟨reactions, hr, rfl⟩ := map_eq_ok.1 h
    exact { Extends.refl v with reactions := Catalog.extends_of_register hr }
  | condition name code =>
    obtain ⟨⟨c, functions⟩, ha, rfl⟩ := map_eq_ok.1 h
    obtain ⟨hnew, -, rfl⟩ := Functions.addCondition_eq_ok.1 ha
    exact { Extends.refl v with
      conditionNames := fun _ _ => Functions.getElem?_insert_of_new hnew }
  | reaction name code =>
    obtain ⟨⟨r, functions⟩, ha, rfl⟩ := map_eq_ok.1 h
    obtain ⟨hnew, -, rfl⟩ := Functions.addReaction_eq_ok.1 ha
    exact { Extends.refl v with
      reactionNames := fun _ _ => Functions.getElem?_insert_of_new hnew }

theorem enterAll_of_ok (h : v.enter entry = .ok v') (entries : List (Entry κ)) :
    v.enterAll (entry :: entries) = v'.enterAll entries := by
  simp only [enterAll, List.foldl_cons, h]

theorem enterAll_of_error {failure : Failure} (h : v.enter entry = .error failure)
    (entries : List (Entry κ)) : v.enterAll (entry :: entries) = v.enterAll entries := by
  simp only [enterAll, List.foldl_cons, h]

theorem enterAll_append (v : Vocabulary κ) (before after : List (Entry κ)) :
    v.enterAll (before ++ after) = (v.enterAll before).enterAll after :=
  List.foldl_append

/-- What one accepted entry keeps, any number of entries do. -/
theorem enterAll_keeps {P : Vocabulary κ → Prop}
    (hP : ∀ v entry v', P v → Vocabulary.enter v entry = .ok v' → P v') :
    ∀ (entries : List (Entry κ)) (v : Vocabulary κ), P v → P (v.enterAll entries)
  | [], _, hv => hv
  | entry :: entries, v, hv => by
    cases he : v.enter entry with
    | ok v' =>
      rw [enterAll_of_ok he]
      exact enterAll_keeps hP entries v' (hP v entry v' hv he)
    | error failure =>
      rw [enterAll_of_error he]
      exact enterAll_keeps hP entries v hv

/-- What a vocabulary has it keeps. -/
theorem extends_enterAll (v : Vocabulary κ) (entries : List (Entry κ)) :
    (v.enterAll entries).Extends v :=
  enterAll_keeps (P := (·.Extends v)) (fun _ _ _ h he => (extends_of_enter he).trans h) entries v
    (.refl v)

theorem knowsBuiltins_enterAll (entries : List (Entry κ)) :
    ((builtin : Vocabulary κ).enterAll entries).KnowsBuiltins :=
  (extends_enterAll builtin entries).knowsBuiltins

/-! ## What reads goes on to read -/

theorem Extends.make {α : Type} {c c' : Catalog α} {tag : String} {args : Json} {a : α}
    (h : c'.Extends c) (ha : c.make tag args = .ok a) : c'.make tag args = .ok a := by
  cases hm : c.makers.lookup tag with
  | some maker =>
    rw [Catalog.make, hm] at ha
    rw [h.make hm]
    exact ha
  | none =>
    rw [Catalog.make, hm] at ha
    cases ha

theorem Extends.readCondition {c : Condition κ} (h : v'.Extends v)
    (hr : v.readCondition record = .ok c) : v'.readCondition record = .ok c := by
  obtain ⟨tag, htag, hr⟩ := bind_eq_ok.1 hr
  refine bind_eq_ok.2 ⟨tag, htag, ?_⟩
  split at hr <;> rename_i hf
  · rw [if_pos hf]
    obtain ⟨name, hname, hr⟩ := bind_eq_ok.1 hr
    refine bind_eq_ok.2 ⟨name, hname, ?_⟩
    split at hr
    · rename_i hfound
      obtain ⟨code, hcode, hc⟩ := Option.map_eq_some_iff.1 hfound
      rw [Functions.condition?, h.conditionNames name code hcode, Option.map_some, hc]
      exact hr
    · cases hr
  · rw [if_neg hf]
    split at hr <;> rename_i hs
    · rw [if_pos hs]
      exact hr
    · rw [if_neg hs]
      exact Extends.make h.conditions hr

theorem Extends.readReaction {r : Reaction κ} (h : v'.Extends v)
    (hr : v.readReaction record = .ok r) : v'.readReaction record = .ok r := by
  obtain ⟨tag, htag, hr⟩ := bind_eq_ok.1 hr
  refine bind_eq_ok.2 ⟨tag, htag, ?_⟩
  split at hr <;> rename_i hf
  · rw [if_pos hf]
    obtain ⟨name, hname, hr⟩ := bind_eq_ok.1 hr
    refine bind_eq_ok.2 ⟨name, hname, ?_⟩
    split at hr
    · rename_i hfound
      obtain ⟨code, hcode, hc⟩ := Option.map_eq_some_iff.1 hfound
      rw [Functions.reaction?, h.reactionNames name code hcode, Option.map_some, hc]
      exact hr
    · cases hr
  · rw [if_neg hf]
    exact Extends.make h.reactions hr

theorem Extends.readLink {l : Link κ} (h : v'.Extends v) (hr : v.readLink record = .ok l) :
    v'.readLink record = .ok l := by
  obtain ⟨event, hevent, hr⟩ := bind_eq_ok.1 hr
  obtain ⟨conditionRecord, hcr, hr⟩ := bind_eq_ok.1 hr
  obtain ⟨condition, hcondition, hr⟩ := bind_eq_ok.1 hr
  obtain ⟨reactionRecord, hrr, hr⟩ := bind_eq_ok.1 hr
  obtain ⟨reaction, hreaction, hr⟩ := bind_eq_ok.1 hr
  refine bind_eq_ok.2 ⟨event, hevent, bind_eq_ok.2 ⟨conditionRecord, hcr, ?_⟩⟩
  refine bind_eq_ok.2 ⟨condition, h.readCondition hcondition, ?_⟩
  exact bind_eq_ok.2 ⟨reactionRecord, hrr, bind_eq_ok.2 ⟨reaction, h.readReaction hreaction, hr⟩⟩

/-- A record that reads goes on to read as the same trigger, with the same code. -/
theorem Extends.readChain {limit : UInt64} {depth : Nat} {t : Trigger κ} (h : v'.Extends v)
    (hr : v.readChain limit depth record = .ok t) :
    v'.readChain limit depth record = .ok t := by
  induction depth generalizing record t with
  | zero => cases hr
  | succ depth ih =>
    obtain ⟨head, hhead, hr⟩ := bind_eq_ok.1 hr
    refine bind_eq_ok.2 ⟨head, h.readLink hhead, ?_⟩
    split at hr
    · exact hr
    · exact hr
    · obtain ⟨rest, hrest, hr⟩ := bind_eq_ok.1 hr
      exact bind_eq_ok.2 ⟨rest, ih hrest, hr⟩

end Vocabulary

/-! ## What a registration is good for -/

/-- The record of a part with the given arguments. -/
def partRecord (tag : String) (args : Json) : Json :=
  .record [("args", args), ("type", .string tag)]

theorem get?_partRecord {tag : String} {args : Json} :
    (partRecord tag args).get? "type" = some (.string tag) := by
  simp [partRecord, Json.get?, Json.lookup]

theorem argsOf_partRecord {tag : String} {args : Json} : argsOf (partRecord tag args) = args := by
  simp [argsOf, partRecord, Json.get?, Json.lookup]

namespace Vocabulary

variable {κ : Type} {v v' : Vocabulary κ} {tag : String}

theorem readCondition_partRecord {maker : Maker (Condition κ)} (hf : tag ≠ functionTag)
    (hs : tag ≠ "SkillCheck") (hm : v.conditions.makers.lookup tag = some maker) (args : Json) :
    v.readCondition (partRecord tag args) = maker args := by
  rw [readCondition, textField_eq_ok get?_partRecord, argsOf_partRecord]
  show (if tag = functionTag then _ else if tag = "SkillCheck" then _ else _) = _
  rw [if_neg hf, if_neg hs, Catalog.make, hm]

theorem readReaction_partRecord {maker : Maker (Reaction κ)} (hf : tag ≠ functionTag)
    (hm : v.reactions.makers.lookup tag = some maker) (args : Json) :
    v.readReaction (partRecord tag args) = maker args := by
  rw [readReaction, textField_eq_ok get?_partRecord, argsOf_partRecord]
  show (if tag = functionTag then _ else _) = _
  rw [if_neg hf, Catalog.make, hm]

/-- The tag of skill checks is never looked up: the check is read from the record itself, which has
no skill. -/
theorem readCondition_skillCheck (v : Vocabulary κ) (args : Json) :
    v.readCondition (partRecord "SkillCheck" args) =
      .error (.malformed "SkillCheck" (.fault (.missingField "skill"))) := by
  have hread : SkillCheck.read (partRecord "SkillCheck" args) =
      .error (.missingField "skill") := rfl
  have hf : "SkillCheck" ≠ functionTag := by decide
  rw [readCondition, textField_eq_ok get?_partRecord]
  simp only [bind, Except.bind, if_neg hf, if_pos, hread]

/-- The maker of an accepted tag reads the records of that tag from then on, whatever is entered
later. The one exception is the tag of skill checks among conditions: it is accepted, but the maker
is never asked, and no record of its form reads. -/
theorem accepted_types_read (before after : List (Entry κ)) (tag : String) (args : Json) :
    (∀ (maker : Maker (Reaction κ)) (v : Vocabulary κ),
      (builtin.enterAll before).enter (.reactionType tag maker) = .ok v →
        (v.enterAll after).readReaction (partRecord tag args) = maker args) ∧
    ∀ (maker : Maker (Condition κ)) (v : Vocabulary κ),
      (builtin.enterAll before).enter (.conditionType tag maker) = .ok v →
        (v.enterAll after).readCondition (partRecord tag args) =
          if tag = "SkillCheck" then
            .error (.malformed "SkillCheck" (.fault (.missingField "skill")))
          else maker args := by
  refine ⟨fun maker v h => ?_, fun maker v h => ?_⟩
  · obtain ⟨reactions, hr, rfl⟩ := map_eq_ok.1 h
    have hext := extends_enterAll { builtin.enterAll before with reactions } after
    have hm := hext.reactions tag maker (Catalog.lookup_of_register hr)
    exact readReaction_partRecord (Catalog.register_eq_ok.1 hr).1 hm args
  · obtain ⟨conditions, hr, rfl⟩ := map_eq_ok.1 h
    split
    · rename_i hs
      subst hs
      exact readCondition_skillCheck _ args
    · rename_i hs
      have hm := (extends_enterAll { builtin.enterAll before with conditions } after).conditions tag
        maker (Catalog.lookup_of_register hr)
      exact readCondition_partRecord (Catalog.register_eq_ok.1 hr).1 hs hm args

/-- Two types beside the built-in ones. -/
def night : List (Entry Nat) :=
  [.conditionType "Night" fun _ => .ok (.perception 3),
    .reactionType "Howl" fun args => .ok (.alert args.render)]

theorem accepted_types_read_night :
    (builtin.enterAll []).enter (.conditionType "Night" fun _ => .ok (.perception 3)) =
      .ok (builtin.enterAll (night.take 1)) ∧
    (builtin.enterAll (night.take 1)).enter
      (.reactionType "Howl" fun args => .ok (.alert args.render)) = .ok (builtin.enterAll night) ∧
    ((builtin.enterAll (night.take 1)).enterAll night).readCondition (partRecord "Night" .null) =
      .ok (.perception 3) ∧
    ((builtin.enterAll night).enterAll night).readReaction (partRecord "Howl" (.bool true)) =
      .ok (.alert "true") := by
  have hnight : (builtin.enterAll []).enter (.conditionType "Night" fun _ => .ok (.perception 3)) =
      .ok (builtin.enterAll (night.take 1)) := rfl
  have hhowl : (builtin.enterAll (night.take 1)).enter
      (.reactionType "Howl" fun args => .ok (.alert args.render)) = .ok (builtin.enterAll night) :=
    rfl
  exact ⟨hnight, hhowl, (accepted_types_read [] night "Night" .null).2 _ _ hnight,
    (accepted_types_read (night.take 1) night "Howl" (.bool true)).1 _ _ hhowl⟩

/-- A maker may be accepted for the tag of skill checks, as it is not for that of functions, and
then is not the one that reads the records of that tag. -/
theorem accepted_type_unread :
    ∃ (v : Vocabulary Nat) (maker : Maker (Condition Nat)) (args : Json),
      builtin.enter (.conditionType "SkillCheck" maker) = .ok v ∧
        v.readCondition (partRecord "SkillCheck" args) ≠ maker args ∧
        builtin.enter (.conditionType functionTag maker) =
          .error (.registration (.typeTaken .condition functionTag)) := by
  refine ⟨_, fun _ => .ok .always, .record [], rfl, ?_, rfl⟩
  rw [readCondition_skillCheck]
  rintro ⟨⟩

end Vocabulary

/-! ## Vocabularies of a run -/

/-- What a change enters in the vocabulary. -/
def Change.entries {κ α : Type} : Change κ α → List (Entry κ)
  | .addConditionType tag maker => [.conditionType tag maker]
  | .addReactionType tag maker => [.reactionType tag maker]
  | .nameCondition name code => [.condition name code]
  | .nameReaction name code => [.reaction name code]
  | _ => []

section
variable {κ σ α : Type} {allowed : Licence κ σ} {s s' : Session κ σ}

open Engine in
/-- The vocabulary of an engine changes by entries only. -/
theorem Change.vocabulary_apply (c : Change κ α) (e : Engine κ) :
    (c.apply e).2.vocabulary = e.vocabulary.enterAll c.entries := by
  have htables : c.IsOfTables → (c.apply e).2.vocabulary = e.vocabulary := fun h =>
    (c.sameRest h e).vocabulary
  cases c with
  | addConditionType tag maker =>
    simp only [apply, entries, Vocabulary.enterAll, List.foldl_cons, List.foldl_nil,
      Vocabulary.enter]
    cases e.vocabulary.conditions.register tag maker <;> rfl
  | addReactionType tag maker =>
    simp only [apply, entries, Vocabulary.enterAll, List.foldl_cons, List.foldl_nil,
      Vocabulary.enter]
    cases e.vocabulary.reactions.register tag maker <;> rfl
  | nameCondition name code =>
    simp only [apply, entries, Vocabulary.enterAll, List.foldl_cons, List.foldl_nil,
      Vocabulary.enter]
    cases e.vocabulary.functions.addCondition name code <;> rfl
  | nameReaction name code =>
    simp only [apply, entries, Vocabulary.enterAll, List.foldl_cons, List.foldl_nil,
      Vocabulary.enter]
    cases e.vocabulary.functions.addReaction name code <;> rfl
  | removeEntity x =>
    refine orRefuse_cases (P := fun e' : Engine κ => e'.vocabulary = e.vocabulary) rfl
      fun removed e' h => ?_
    obtain ⟨world, -, rfl⟩ := removeEntity_eq_ok h
    exact (removeTriggers_rest e _).vocabulary
  | dequeue =>
    show e.dequeue.2.vocabulary = e.vocabulary
    unfold Engine.dequeue
    split <;> rfl
  | schedule | scheduleRounds | setOrder | setActor | removeActor | enqueue => rfl
  | rollDie | rollD20 | rollDice | restoreDice | setGamemaster | setAudio => rfl
  | _ => exact htables trivial

theorem Move.vocabulary (h : Move allowed s s') :
    ∃ entries, s'.engine.vocabulary = s.engine.vocabulary.enterAll entries := by
  cases h with
  | change c => exact ⟨c.entries, c.vocabulary_apply s.engine⟩
  | strike target dice =>
    refine ⟨[], ?_⟩
    show (s.engine.strike target dice).2.vocabulary = s.engine.vocabulary
    unfold Engine.strike
    dsimp only
    split <;> rfl
  | _ => exact ⟨[], rfl⟩

/-- The vocabulary at any moment of a run is the built-in one with some entries. -/
theorem Session.vocabulary_of_moves {world : WorldId} {settings : Settings} {state : σ}
    {budget : Nat} (h : Moves allowed (opening world settings state budget) s) :
    ∃ entries, s.engine.vocabulary = Vocabulary.builtin.enterAll entries := by
  refine h.keep (P := fun s => ∃ entries, s.engine.vocabulary = Vocabulary.builtin.enterAll entries)
    (fun s s' hm => ?_) ⟨[], rfl⟩
  rintro ⟨before, hs⟩
  obtain ⟨after, hs'⟩ := hm.vocabulary
  exact ⟨before ++ after, by rw [hs', hs, Vocabulary.enterAll_append]⟩

end

end Encounter
