import Encounter.Proofs.Acceptance
import Encounter.Proofs.Moves

/-!
# Records of triggers are lossless

What is read from the record of a trigger is the trigger itself, with no fire recorded and with the
code that its names stand for now (`Trigger.recalled`, `readTrigger_toJson`). Further types in the
catalogs do not matter, since a tag that is taken is never given to another maker. In the other
direction, the built-in makers only give what can be written (`bound_of_readTrigger`), so a record
that they accept can be rewritten and read again.
-/

set_option autoImplicit false

namespace Encounter

open Json (get?_ofEntries readInt64_ofInt64 readUInt64_ofUInt64)
open Json.RecordReader (read_ofEntries exists_build)

/-! ## Vocabularies that grew -/

namespace Catalog

variable {α : Type}

/-- The catalog has every maker of another one, under the same tag. -/
def Extends (c base : Catalog α) : Prop :=
  ∀ tag maker, base.makers.lookup tag = some maker → c.makers.lookup tag = some maker

theorem Extends.refl (c : Catalog α) : c.Extends c := fun _ _ h => h

theorem Extends.trans {c c' base : Catalog α} (h' : c'.Extends c) (h : c.Extends base) :
    c'.Extends base := fun tag maker hm => h' tag maker (h tag maker hm)

theorem extends_of_register {c c' : Catalog α} {tag : String} {maker : Maker α}
    (h : c.register tag maker = .ok c') : c'.Extends c := by
  unfold register at h
  split at h
  · cases h
  · cases h
    intro tag' maker' hm
    simp [List.lookup_append, hm]

theorem Extends.make {c base : Catalog α} (h : c.Extends base) {tag : String} {args : Json}
    {maker : Maker α} (hm : base.makers.lookup tag = some maker) :
    c.make tag args = maker args := by
  rw [Catalog.make, h tag maker hm]

end Catalog

/-- The built-in conditions and reactions are in the vocabulary, perhaps with others. -/
structure Vocabulary.KnowsBuiltins {κ : Type} (v : Vocabulary κ) : Prop where
  conditions : v.conditions.Extends .conditions
  reactions : v.reactions.Extends .reactions

theorem Vocabulary.knowsBuiltins_of_builtin {κ : Type} (functions : Functions κ) :
    (⟨.conditions, .reactions, functions⟩ : Vocabulary κ).KnowsBuiltins :=
  ⟨.refl _, .refl _⟩

/-! ## Names and their code -/

section
variable {κ : Type}

/-- A function is known by its name. -/
def Condition.Known (f : Functions κ) : Condition κ → Prop
  | .function name _ => f.conditions.contains name
  | _ => True

/-- A function has the code that its name stands for. -/
def Condition.Bound (f : Functions κ) : Condition κ → Prop
  | .function name code => f.conditions[name]? = some code
  | _ => True

/-- A function gets the code that its name stands for. -/
def Condition.recalled (f : Functions κ) : Condition κ → Condition κ
  | .function name code => .function name (f.conditions[name]?.getD code)
  | c => c

/-- A function is known by its name. -/
def Reaction.Known (f : Functions κ) : Reaction κ → Prop
  | .function name _ => f.reactions.contains name
  | _ => True

/-- A function has the code that its name stands for. -/
def Reaction.Bound (f : Functions κ) : Reaction κ → Prop
  | .function name code => f.reactions[name]? = some code
  | _ => True

/-- A function gets the code that its name stands for. -/
def Reaction.recalled (f : Functions κ) : Reaction κ → Reaction κ
  | .function name code => .function name (f.reactions[name]?.getD code)
  | r => r

/-- All functions of the trigger are known by their names. -/
def Trigger.Known (f : Functions κ) (t : Trigger κ) : Prop :=
  ∀ l ∈ t.links, l.condition.Known f ∧ l.reaction.Known f

/-- All functions of the trigger have the code that their names stand for. -/
def Trigger.Bound (f : Functions κ) (t : Trigger κ) : Prop :=
  ∀ l ∈ t.links, l.condition.Bound f ∧ l.reaction.Bound f

/-- The link as its record keeps it: no fire is recorded, and the code is what the names stand
for. -/
def Link.recalled (f : Functions κ) (l : Link κ) : Link κ :=
  { l with
    condition := l.condition.recalled f
    reaction := l.reaction.recalled f
    lastFired := none }

/-- The trigger as its record keeps it. -/
def Trigger.recalled (f : Functions κ) (t : Trigger κ) : Trigger κ :=
  ⟨t.head.recalled f, t.rest.map (·.recalled f)⟩

variable {f : Functions κ}

theorem Trigger.links_recalled (t : Trigger κ) :
    (t.recalled f).links = t.links.map (·.recalled f) := rfl

namespace Condition

variable {c : Condition κ}

theorem toJson_recalled : (c.recalled f).toJson = c.toJson := by
  cases c <;> rfl

theorem mapCode_recalled : (c.recalled f).mapCode (fun _ => ()) = c.mapCode fun _ => () := by
  cases c <;> rfl

theorem recalled_of_bound (h : c.Bound f) : c.recalled f = c := by
  cases c with
  | function name code => rw [recalled, show f.conditions[name]? = some code from h]; rfl
  | _ => rfl

theorem bound_recalled (h : c.Known f) : (c.recalled f).Bound f := by
  cases c with
  | function name code =>
    rw [Known, Std.ExtTreeMap.contains_eq_isSome_getElem?] at h
    obtain ⟨code', hcode⟩ := Option.isSome_iff_exists.1 h
    simp [recalled, Bound, hcode]
  | _ => trivial

theorem known_of_bound (h : c.Bound f) : c.Known f := by
  cases c with
  | function name code =>
    rw [Known, Std.ExtTreeMap.contains_eq_isSome_getElem?, show f.conditions[name]? = _ from h]
    rfl
  | _ => trivial

end Condition

namespace Reaction

variable {r : Reaction κ}

theorem toJson_recalled : (r.recalled f).toJson = r.toJson := by
  cases r <;> rfl

theorem mapCode_recalled : (r.recalled f).mapCode (fun _ => ()) = r.mapCode fun _ => () := by
  cases r <;> rfl

theorem recalled_of_bound (h : r.Bound f) : r.recalled f = r := by
  cases r with
  | function name code => rw [recalled, show f.reactions[name]? = some code from h]; rfl
  | _ => rfl

theorem bound_recalled (h : r.Known f) : (r.recalled f).Bound f := by
  cases r with
  | function name code =>
    rw [Known, Std.ExtTreeMap.contains_eq_isSome_getElem?] at h
    obtain ⟨code', hcode⟩ := Option.isSome_iff_exists.1 h
    simp [recalled, Bound, hcode]
  | _ => trivial

theorem known_of_bound (h : r.Bound f) : r.Known f := by
  cases r with
  | function name code =>
    rw [Known, Std.ExtTreeMap.contains_eq_isSome_getElem?, show f.reactions[name]? = _ from h]
    rfl
  | _ => trivial

end Reaction

namespace Link

variable {l : Link κ}

theorem toJson_recalled {next : Json} : (l.recalled f).toJson next = l.toJson next := by
  simp only [Link.toJson, Link.recalled, Condition.toJson_recalled, Reaction.toJson_recalled]

theorem mapCode_recalled :
    (l.recalled f).mapCode (fun _ => ()) = { l with lastFired := none }.mapCode fun _ => () := by
  simp only [mapCode, recalled, Condition.mapCode_recalled, Reaction.mapCode_recalled]

theorem recalled_of_bound (hc : l.condition.Bound f) (hr : l.reaction.Bound f) :
    l.recalled f = { l with lastFired := none } := by
  rw [recalled, Condition.recalled_of_bound hc, Reaction.recalled_of_bound hr]

theorem chainToJson_recalled (links : List (Link κ)) :
    chainToJson (links.map (·.recalled f)) = chainToJson links := by
  induction links with
  | nil => rfl
  | cons l rest ih => rw [List.map_cons, chainToJson, chainToJson, toJson_recalled, ih]

end Link

namespace Trigger

variable {t : Trigger κ}

theorem toJson_recalled : (t.recalled f).toJson = t.toJson :=
  Link.chainToJson_recalled t.links

theorem sameRecord_recalled : (t.recalled f).sameRecord t.unfired := by
  have hrest : (t.rest.map (·.recalled f)).map (·.mapCode fun _ => ()) =
      (t.rest.map fun l => { l with lastFired := none }).map (·.mapCode fun _ => ()) := by
    rw [List.map_map, List.map_map]
    exact List.map_congr_left fun l _ => Link.mapCode_recalled
  simp only [sameRecord, mapCode, recalled, unfired, Link.mapCode_recalled, hrest, decide_true]

theorem recalled_of_bound (h : t.Bound f) : t.recalled f = t.unfired := by
  have hrest : t.rest.map (·.recalled f) = t.rest.map fun l => { l with lastFired := none } :=
    List.map_congr_left fun l hl =>
      have hl := h l (List.mem_cons_of_mem _ hl)
      Link.recalled_of_bound hl.1 hl.2
  have hhead := h t.head List.mem_cons_self
  rw [recalled, unfired, hrest, Link.recalled_of_bound hhead.1 hhead.2]

theorem bound_recalled (h : t.Known f) : (t.recalled f).Bound f := by
  intro l hl
  rw [links_recalled] at hl
  obtain ⟨l', hl', rfl⟩ := List.mem_map.1 hl
  exact ⟨Condition.bound_recalled (h l' hl').1, Reaction.bound_recalled (h l' hl').2⟩

theorem known_of_bound (h : t.Bound f) : t.Known f := fun l hl =>
  ⟨Condition.known_of_bound (h l hl).1, Reaction.known_of_bound (h l hl).2⟩

end Trigger

end

/-! ## Reading what was written -/

section
variable {κ : Type} {v : Vocabulary κ}

theorem get?_taggedRecord {tag : String} {args : List (String × Json)} :
    (taggedRecord tag args).get? "type" = some (.string tag) := by
  simp [taggedRecord, Json.get?, Json.lookup]

theorem argsOf_taggedRecord {tag : String} {args : List (String × Json)} :
    argsOf (taggedRecord tag args) = .ofEntries args := by
  simp [argsOf, taggedRecord, Json.get?, Json.lookup]

theorem get?_functionRecord {name : String} :
    (functionRecord name).get? "type" = some (.string functionTag) ∧
      (functionRecord name).get? "name" = some (.string name) := by
  simp [functionRecord, Json.get?, Json.lookup]

theorem readString_string (text : String) : Json.readString (.string text) = .ok text := rfl

theorem readBool_true : Json.readBool (.bool true) = .ok true := rfl

theorem accepts_flag {name : String} {get : String → Option Json} {b : Bool}
    (h : get name = if b then some (.bool true) else none) :
    (Json.RecordReader.withDefault name Json.readBool false).Accepts get b := by
  cases b with
  | false => exact .withDefault_none h
  | true => exact .withDefault_some h readBool_true

theorem read_skillCheck (check : SkillCheck) :
    SkillCheck.read (Condition.skill check : Condition κ).toJson = .ok check := by
  obtain ⟨skill, difficulty, pass, fail⟩ := check
  refine read_ofEntries (by cases pass <;> cases fail <;> simp) ?_
  refine .seq (.seq (.seq (.map (.required ?_ (readString_string _)))
    (.required ?_ (readInt64_ofInt64 _))) (accepts_flag ?_)) (accepts_flag ?_)
  all_goals cases pass <;> cases fail <;> simp [Json.lookup]

theorem builtin_eq_ok {α : Type} {tag name : String} {reader : Json.RecordReader α}
    {entries : List (String × Json)} {a : α} (hkeys : (entries.map (·.1)).Nodup)
    (h : reader.Accepts (fun key => Json.lookup key entries.reverse) a) :
    builtin tag name reader (.ofEntries entries) = .ok a := by
  rw [builtin, read_ofEntries hkeys h]

theorem readCondition_tagged {tag : String} {args : List (String × Json)}
    {maker : Maker (Condition κ)} (hv : v.KnowsBuiltins)
    (hm : (Catalog.conditions (κ := κ)).makers.lookup tag = some maker) (hf : tag ≠ functionTag)
    (hs : tag ≠ "SkillCheck") :
    v.readCondition (taggedRecord tag args) = maker (.ofEntries args) := by
  rw [Vocabulary.readCondition, textField_eq_ok get?_taggedRecord, argsOf_taggedRecord]
  show (if tag = functionTag then _ else if tag = "SkillCheck" then _ else _) = _
  rw [if_neg hf, if_neg hs, hv.conditions.make hm]

theorem readCondition_toJson (hv : v.KnowsBuiltins) {c : Condition κ} (hc : c.Known v.functions) :
    v.readCondition c.toJson = .ok (c.recalled v.functions) := by
  cases c with
  | always =>
    rw [Condition.toJson, readCondition_tagged hv (by rfl) (by decide) (by decide)]
    rfl
  | perception difficulty =>
    rw [Condition.toJson, readCondition_tagged hv (by rfl) (by decide) (by decide)]
    exact builtin_eq_ok (by simp) (.map (.required rfl (readInt64_ofInt64 _)))
  | skill check =>
    -- a skill check stands in the record itself and not among arguments, and no maker reads it
    have htag : (Condition.skill check : Condition κ).toJson.get? "type" =
        some (.string "SkillCheck") := by
      rw [Condition.toJson, get?_ofEntries]
      cases check.autoPass <;> cases check.autoFail <;> simp [Json.lookup]
    refine bind_eq_ok.2 ⟨"SkillCheck", textField_eq_ok htag, ?_⟩
    rw [if_neg (by decide), if_pos rfl, read_skillCheck]
    rfl
  | function name code =>
    rw [Condition.Known, Std.ExtTreeMap.contains_eq_isSome_getElem?] at hc
    obtain ⟨code', hcode⟩ := Option.isSome_iff_exists.1 hc
    refine bind_eq_ok.2 ⟨functionTag, textField_eq_ok get?_functionRecord.1, ?_⟩
    rw [if_pos rfl]
    refine bind_eq_ok.2 ⟨name, textField_eq_ok get?_functionRecord.2, ?_⟩
    rw [Functions.condition?, hcode, Condition.recalled, hcode]
    rfl

theorem readReaction_tagged {tag : String} {args : List (String × Json)}
    {maker : Maker (Reaction κ)} (hv : v.KnowsBuiltins)
    (hm : (Catalog.reactions (κ := κ)).makers.lookup tag = some maker) (hf : tag ≠ functionTag) :
    v.readReaction (taggedRecord tag args) = maker (.ofEntries args) := by
  rw [Vocabulary.readReaction, textField_eq_ok get?_taggedRecord, argsOf_taggedRecord]
  show (if tag = functionTag then _ else _) = _
  rw [if_neg hf, hv.reactions.make hm]

theorem readReaction_toJson (hv : v.KnowsBuiltins) {r : Reaction κ} (hr : r.Known v.functions) :
    v.readReaction r.toJson = .ok (r.recalled v.functions) := by
  cases r with
  | damage type amount =>
    rw [Reaction.toJson, readReaction_tagged hv (by rfl) (by decide)]
    exact builtin_eq_ok (by simp) <| .seq (.map (.required rfl (readString_string _)))
      (.required rfl (readInt64_ofInt64 _))
  | alert message =>
    rw [Reaction.toJson, readReaction_tagged hv (by rfl) (by decide)]
    exact builtin_eq_ok (by simp) (.map (.required rfl (readString_string _)))
  | sound file =>
    rw [Reaction.toJson, readReaction_tagged hv (by rfl) (by decide)]
    exact builtin_eq_ok (by simp) (.map (.required rfl (readString_string _)))
  | schedule turns event =>
    rw [Reaction.toJson, readReaction_tagged hv (by rfl) (by decide)]
    exact builtin_eq_ok (by simp) <| .seq (.map (.required rfl (readUInt64_ofUInt64 _)))
      (.required rfl (readString_string _))
  | function name code =>
    rw [Reaction.Known, Std.ExtTreeMap.contains_eq_isSome_getElem?] at hr
    obtain ⟨code', hcode⟩ := Option.isSome_iff_exists.1 hr
    refine bind_eq_ok.2 ⟨functionTag, textField_eq_ok get?_functionRecord.1, ?_⟩
    rw [if_pos rfl]
    refine bind_eq_ok.2 ⟨name, textField_eq_ok get?_functionRecord.2, ?_⟩
    rw [Functions.reaction?, hcode, Reaction.recalled, hcode]
    rfl

theorem Condition.isNull_toJson (c : Condition κ) : c.toJson.isNull = false := by
  cases c <;> rfl

theorem Reaction.isNull_toJson (r : Reaction κ) : r.toJson.isNull = false := by
  cases r <;> rfl

theorem Link.given?_toJson (l : Link κ) (next : Json) :
    (l.toJson next).given? "event_type" = some (.string l.event) ∧
    (l.toJson next).given? "condition" = some l.condition.toJson ∧
    (l.toJson next).given? "reaction" = some l.reaction.toJson ∧
    (l.toJson next).given? "label" = (some l.label).map .string ∧
    (l.toJson next).given? "source" = l.source.map .string ∧
    (l.toJson next).given? "cooldown" = l.cooldown.map .ofUInt64 ∧
    (l.toJson next).given? "next_trigger" = if next.isNull then none else some next := by
  simp only [Json.given?, toJson, get?_ofEntries]
  cases l.source <;> cases l.cooldown <;> cases hnext : next.isNull <;>
    simp [Json.lookup, Option.filter_some, l.condition.isNull_toJson, l.reaction.isNull_toJson,
      hnext]

theorem describes_toJson (hv : v.KnowsBuiltins) {l : Link κ} (hc : l.condition.Known v.functions)
    (hr : l.reaction.Known v.functions) (next : Json) :
    v.Describes (l.toJson next) (l.recalled v.functions) := by
  obtain ⟨hevent, hcondition, hreaction, hlabel, hsource, hcooldown, -⟩ := l.given?_toJson next
  exact {
    event := hevent
    condition := ⟨_, hcondition, readCondition_toJson hv hc⟩
    reaction := ⟨_, hreaction, readReaction_toJson hv hr⟩
    label := ⟨_, hlabel, rfl⟩
    source := hsource
    cooldown := hcooldown
    lastFired := rfl }

theorem readChain_succ (hv : v.KnowsBuiltins) {limit : UInt64} {depth : Nat} {l : Link κ}
    (hc : l.condition.Known v.functions) (hr : l.reaction.Known v.functions) (next : Json) :
    v.readChain limit (depth + 1) (l.toJson next) =
      if next.isNull then .ok ⟨l.recalled v.functions, []⟩
      else (v.readChain limit depth next).map fun rest => ⟨l.recalled v.functions, rest.links⟩ := by
  obtain ⟨-, -, -, -, -, -, hnext⟩ := l.given?_toJson next
  rw [Vocabulary.readChain_eq, Vocabulary.readLink_iff.2 (describes_toJson hv hc hr next), hnext]
  cases next.isNull <;> rfl

/-- A chain may be as deep as it is allowed to be. -/
theorem readChain_toJson (hv : v.KnowsBuiltins) {limit : UInt64} {depth : Nat} {t : Trigger κ}
    (hdepth : t.length ≤ depth) (ht : t.Known v.functions) :
    v.readChain limit depth t.toJson = .ok (t.recalled v.functions) := by
  obtain ⟨l, rest⟩ := t
  induction rest generalizing l depth with
  | nil =>
    obtain ⟨depth, rfl⟩ := Nat.exists_eq_add_of_le' (show 1 ≤ depth from hdepth)
    obtain ⟨hc, hr⟩ := ht l List.mem_cons_self
    exact readChain_succ hv hc hr .null
  | cons l' rest ih =>
    obtain ⟨depth, rfl⟩ := Nat.exists_eq_add_of_le' (Nat.le_trans (Nat.le_add_left 1 _) hdepth)
    obtain ⟨hc, hr⟩ := ht l List.mem_cons_self
    have hrest := ih l' (Nat.le_of_succ_le_succ hdepth) fun l hl =>
      ht l (List.mem_cons_of_mem _ hl)
    refine (readChain_succ hv hc hr (Link.chainToJson (l' :: rest))).trans ?_
    rw [if_neg Bool.noConfusion]
    exact congrArg (Except.map _) hrest

end

/-! ## What the built-in makers give -/

theorem Catalog.exists_maker_of_make {α : Type} {c : Catalog α} {tag : String} {args : Json} {a : α}
    (h : c.make tag args = .ok a) : ∃ maker, (tag, maker) ∈ c.makers ∧ maker args = .ok a := by
  unfold make at h
  split at h
  · rename_i maker hm
    obtain ⟨before, after, hmakers, -⟩ := List.lookup_eq_some_iff.1 hm
    exact ⟨maker, by simp [hmakers], h⟩
  · cases h

theorem exists_build_of_builtin {α : Type} {tag name : String} {reader : Json.RecordReader α}
    {args : Json} {a : α} (h : builtin tag name reader args = .ok a) :
    ∃ get, reader.build get = .ok a := by
  unfold builtin at h
  split at h
  · cases h
    exact exists_build ‹_›
  · cases h

section
variable {κ : Type} {functions : Functions κ}

theorem Condition.bound_of_make {tag : String} {args : Json} {c : Condition κ}
    (h : Catalog.conditions.make tag args = .ok c) : c.Bound functions := by
  obtain ⟨maker, hmem, h⟩ := Catalog.exists_maker_of_make h
  simp only [Catalog.conditions, List.mem_cons, Prod.mk.injEq, List.not_mem_nil, or_false] at hmem
  obtain ⟨-, rfl⟩ | ⟨-, rfl⟩ := hmem
  · cases h
    trivial
  · obtain ⟨get, h⟩ := exists_build_of_builtin h
    obtain ⟨difficulty, -, rfl⟩ := map_eq_ok.1 h
    trivial

theorem Reaction.bound_of_make {tag : String} {args : Json} {r : Reaction κ}
    (h : Catalog.reactions.make tag args = .ok r) : r.Bound functions := by
  obtain ⟨maker, hmem, h⟩ := Catalog.exists_maker_of_make h
  simp only [Catalog.reactions, List.mem_cons, Prod.mk.injEq, List.not_mem_nil, or_false] at hmem
  obtain ⟨-, rfl⟩ | ⟨-, rfl⟩ | ⟨-, rfl⟩ | ⟨-, rfl⟩ := hmem
  all_goals obtain ⟨get, h⟩ := exists_build_of_builtin h
  · obtain ⟨maker, hmaker, h⟩ := bind_eq_ok.1 h
    obtain ⟨type, -, rfl⟩ := map_eq_ok.1 hmaker
    obtain ⟨amount, -, h⟩ := bind_eq_ok.1 h
    cases h
    trivial
  · obtain ⟨message, -, rfl⟩ := map_eq_ok.1 h
    trivial
  · obtain ⟨file, -, rfl⟩ := map_eq_ok.1 h
    trivial
  · obtain ⟨maker, hmaker, h⟩ := bind_eq_ok.1 h
    obtain ⟨turns, -, rfl⟩ := map_eq_ok.1 hmaker
    obtain ⟨event, -, h⟩ := bind_eq_ok.1 h
    cases h
    trivial

theorem bound_of_readCondition {record : Json} {c : Condition κ}
    (h : (⟨.conditions, .reactions, functions⟩ : Vocabulary κ).readCondition record = .ok c) :
    c.Bound functions := by
  obtain ⟨tag, -, h⟩ := bind_eq_ok.1 h
  split at h
  · obtain ⟨name, -, h⟩ := bind_eq_ok.1 h
    split at h
    · rename_i hname
      cases h
      obtain ⟨code, hcode, rfl⟩ := Option.map_eq_some_iff.1 hname
      exact hcode
    · cases h
  · split at h
    · split at h
      · cases h
        trivial
      · cases h
    · exact Condition.bound_of_make h

theorem bound_of_readReaction {record : Json} {r : Reaction κ}
    (h : (⟨.conditions, .reactions, functions⟩ : Vocabulary κ).readReaction record = .ok r) :
    r.Bound functions := by
  obtain ⟨tag, -, h⟩ := bind_eq_ok.1 h
  split at h
  · obtain ⟨name, -, h⟩ := bind_eq_ok.1 h
    split at h
    · rename_i hname
      cases h
      obtain ⟨code, hcode, rfl⟩ := Option.map_eq_some_iff.1 hname
      exact hcode
    · cases h
  · exact Reaction.bound_of_make h

theorem bound_of_readLink {record : Json} {l : Link κ}
    (h : (⟨.conditions, .reactions, functions⟩ : Vocabulary κ).readLink record = .ok l) :
    l.condition.Bound functions ∧ l.reaction.Bound functions ∧ l.lastFired = none := by
  obtain ⟨event, -, h⟩ := bind_eq_ok.1 h
  obtain ⟨value, -, h⟩ := bind_eq_ok.1 h
  obtain ⟨condition, hcondition, h⟩ := bind_eq_ok.1 h
  obtain ⟨value', -, h⟩ := bind_eq_ok.1 h
  obtain ⟨reaction, hreaction, h⟩ := bind_eq_ok.1 h
  obtain ⟨label, -, h⟩ := bind_eq_ok.1 h
  obtain ⟨source, -, h⟩ := bind_eq_ok.1 h
  obtain ⟨cooldown, -, h⟩ := bind_eq_ok.1 h
  cases h
  exact ⟨bound_of_readCondition hcondition, bound_of_readReaction hreaction, rfl⟩

theorem bound_of_readChain {limit : UInt64} {depth : Nat} {record : Json} {t : Trigger κ}
    (h : (⟨.conditions, .reactions, functions⟩ : Vocabulary κ).readChain limit depth record =
      .ok t) :
    t.length ≤ depth ∧ ∀ l ∈ t.links,
      l.condition.Bound functions ∧ l.reaction.Bound functions ∧ l.lastFired = none := by
  induction depth generalizing record t with
  | zero => cases h
  | succ depth ih =>
    obtain ⟨head, hhead, h⟩ := bind_eq_ok.1 h
    have hlink := bound_of_readLink hhead
    have hlast : (⟨head, []⟩ : Trigger κ).length ≤ depth + 1 ∧
        ∀ l ∈ (⟨head, []⟩ : Trigger κ).links,
          l.condition.Bound functions ∧ l.reaction.Bound functions ∧ l.lastFired = none :=
      ⟨Nat.le_add_left 1 depth, fun l hl => List.mem_singleton.1 hl ▸ hlink⟩
    split at h
    · -- no next link is given
      cases h
      exact hlast
    · -- the next link is null
      cases h
      exact hlast
    · obtain ⟨rest, hrest, h⟩ := bind_eq_ok.1 h
      cases h
      obtain ⟨hlength, hlinks⟩ := ih hrest
      refine ⟨Nat.succ_le_succ hlength, fun l hl => ?_⟩
      obtain rfl | hl := List.mem_cons.1 hl
      · exact hlink
      · exact hlinks l hl

theorem Trigger.unfired_eq_self {t : Trigger κ} (h : ∀ l ∈ t.links, l.lastFired = none) :
    t.unfired = t := by
  have hclear : ∀ l : Link κ, l.lastFired = none → { l with lastFired := none } = l := by
    rintro ⟨⟩ rfl
    rfl
  obtain ⟨l, rest⟩ := t
  have hrest : rest.map (fun l => { l with lastFired := none }) = rest := by
    conv_rhs => rw [← List.map_id rest]
    exact List.map_congr_left fun l hl => hclear l (h l (List.mem_cons_of_mem _ hl))
  rw [unfired, hrest, hclear l (h l List.mem_cons_self)]

end

/-! ## There and back -/

/-- A trigger that is not too deep and whose functions are known is read back from its record, with
no fire recorded and with the code that its names stand for. A record that the built-in makers
accept gives a trigger that is read back exactly. -/
theorem Vocabulary.saved_triggers_return {κ : Type} :
    (∀ (v : Vocabulary κ) (limit : UInt64) (t : Trigger κ), v.KnowsBuiltins →
      t.length ≤ limit.toNat → t.Known v.functions →
      ∃ t', v.readTrigger limit t.toJson = .ok t' ∧ t'.sameRecord t.unfired ∧
        t'.Bound v.functions ∧ (t.Bound v.functions → t' = t.unfired) ∧ t'.toJson = t.toJson) ∧
    ∀ (functions : Functions κ) (limit : UInt64) (record : Json) (t : Trigger κ),
      (⟨.conditions, .reactions, functions⟩ : Vocabulary κ).readTrigger limit record = .ok t →
      (⟨.conditions, .reactions, functions⟩ : Vocabulary κ).readTrigger limit t.toJson =
        .ok t := by
  constructor
  · intro v limit t hv hdepth ht
    exact ⟨t.recalled v.functions, readChain_toJson hv hdepth ht, t.sameRecord_recalled,
      t.bound_recalled ht, t.recalled_of_bound, t.toJson_recalled⟩
  · intro functions limit record t h
    obtain ⟨hdepth, hlinks⟩ := bound_of_readChain h
    have hbound : t.Bound functions := fun l hl => ⟨(hlinks l hl).1, (hlinks l hl).2.1⟩
    have hsame : t.recalled functions = t := by
      rw [t.recalled_of_bound hbound, t.unfired_eq_self fun l hl => (hlinks l hl).2.2]
    exact (readChain_toJson (knowsBuiltins_of_builtin functions) hdepth
      (t.known_of_bound hbound)).trans (congrArg Except.ok hsame)

/-- The built-in parts, one more kind of condition and a reaction that was named. -/
def Vocabulary.howling : Vocabulary Nat where
  conditions := ⟨.condition, Catalog.conditions.makers ++ [("Night", fun _ => .ok .always)]⟩
  reactions := .reactions
  functions := ⟨∅, .ofList [("howl", 7)]⟩

/-- Two links of which the first one runs a named function. -/
def Trigger.howling : Trigger Nat :=
  (Trigger.new "NIGHTFALL" (.skill ⟨"stealth", 12, false, true⟩) (.function "howl" 3)).andThen
    ((Trigger.new "NIGHTFALL" (.perception (-4)) (.schedule 2 "DAWN")).withCooldown (some 3))

/-- A record as someone may write it by hand. -/
def Json.handwritten : Json :=
  .record [("condition", .record [("type", .string "AlwaysTrue")]), ("event_type", .string "RUNG"),
    ("reaction", .record [("args", .record [("sound_file", .string "bell")]),
      ("type", .string "PlaySound")])]

theorem Vocabulary.saved_triggers_return_howling :
    Catalog.conditions.register "Night" (fun _ => .ok .always) = .ok howling.conditions ∧
    (∃ t', howling.readTrigger 2 Trigger.howling.toJson = .ok t' ∧
      t'.sameRecord Trigger.howling.unfired ∧ t'.Bound howling.functions ∧
      (Trigger.howling.Bound howling.functions → t' = Trigger.howling.unfired) ∧
      t'.toJson = Trigger.howling.toJson) ∧
    builtin.readTrigger 1 Json.handwritten =
      .ok (Trigger.new (κ := Nat) "RUNG" .always (.sound "bell")) ∧
    builtin.readTrigger 1 (Trigger.new (κ := Nat) "RUNG" .always (.sound "bell")).toJson =
      .ok (Trigger.new (κ := Nat) "RUNG" .always (.sound "bell")) := by
  have hregister : Catalog.conditions.register "Night" (fun _ => .ok .always) =
      .ok howling.conditions := rfl
  have hknows : howling.KnowsBuiltins := ⟨Catalog.extends_of_register hregister, .refl _⟩
  have hknown : Trigger.howling.Known howling.functions := by
    intro l hl
    obtain rfl | hl := List.mem_cons.1 hl
    · exact ⟨trivial, show howling.functions.reactions.contains "howl" = true by simp [howling]⟩
    · obtain rfl := List.mem_singleton.1 hl
      exact ⟨trivial, trivial⟩
  have hread : builtin.readTrigger 1 Json.handwritten =
      .ok (Trigger.new (κ := Nat) "RUNG" .always (.sound "bell")) := rfl
  exact ⟨hregister, saved_triggers_return.1 howling 2 .howling hknows (by decide) hknown, hread,
    saved_triggers_return.2 .empty 1 Json.handwritten _ hread⟩

end Encounter
