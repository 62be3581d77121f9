import Encounter.Proofs.Records
import Encounter.Proofs.Registration
import Encounter.Save.Trigger

/-!
# Which records are triggers

`Vocabulary.Describes` says when a record describes a link (`readLink_iff`), `Vocabulary.Faulty`
with what failure it is refused otherwise: that of the first of the checks that it fails, in the
order of `LinkCheck.all` (`readLink_error_iff`). A chain is read from its first link on. Its record
is a trigger if all links that it leads to are described and are no more than the limit
(`readChain_iff`). If it is not, the failure is that of the first link at fault or, if none within
the limit is, that the chain is too deep (`readChain_error_iff`). All of it together is
`readTrigger_accepts_exactly`.
-/

set_option autoImplicit false

namespace Encounter

open Json (asUInt64?_ofUInt64)

/-! ## Refused steps -/

section
variable {ε α β : Type} {x : Except ε α} {g : α → Except ε β} {f : ε}

theorem bind_eq_error :
    (x >>= g) = .error f ↔ x = .error f ∨ ∃ a, x = .ok a ∧ g a = .error f := by
  cases x <;> simp [bind, Except.bind]

end

/-! ## Fields -/

namespace Json

variable {record value : Json} {key : String}

/-- The value under `key`, where `null` counts as nothing. -/
def given? (record : Json) (key : String) : Option Json :=
  (record.get? key).filter fun value => !value.isNull

@[simp] theorem isNull_string (text : String) : (string text).isNull = false := rfl

@[simp] theorem isNull_ofUInt64 (n : UInt64) : (ofUInt64 n).isNull = false := rfl

theorem isNull_iff : value.isNull ↔ value = .null := by
  cases value <;> simp [isNull]

theorem given?_eq_some :
    record.given? key = some value ↔ record.get? key = some value ∧ value ≠ .null := by
  simp [given?, Option.filter_eq_some_iff, ← isNull_iff]

theorem asString?_eq_some {text : String} : value.asString? = some text ↔ value = .string text := by
  cases value <;> simp [asString?]

theorem asUInt64?_eq_some {n : UInt64} : value.asUInt64? = some n ↔ value = .ofUInt64 n := by
  refine ⟨fun h => ?_, fun h => h ▸ asUInt64?_ofUInt64 n⟩
  cases value with
  | int i =>
    obtain ⟨hi, h⟩ := Option.ite_none_right_eq_some.1 h
    cases h
    have hlt : i.toNat < UInt64.size := by simp only [UInt64.size]; omega
    rw [ofUInt64, UInt64.toNat_ofNat_of_lt' hlt, Int.toNat_of_nonneg hi.1]
  | _ => cases h

end Json

section
variable {α : Type} {record : Json} {kind field wanted text : String} {f : Failure}

theorem textField_iff : textField record kind field = .ok text ↔
    record.given? field = some (.string text) := by
  rw [Json.given?_eq_some, textField]
  cases h : record.get? field with
  | none => simp
  | some value => cases value <;> simp [Json.asString?]

theorem textField_eq_ok (h : record.get? field = some (.string text)) :
    textField record kind field = .ok text :=
  textField_iff.2 (Json.given?_eq_some.2 ⟨h, nofun⟩)

theorem textField_error_iff : textField record kind field = .error f ↔
    (∀ text, record.given? field ≠ some (.string text)) ∧ f = .missingField kind field := by
  have htext (text : String) : record.given? field = some (.string text) ↔
      textField record kind field = .ok text := textField_iff.symm
  simp only [ne_eq, htext]
  unfold textField
  split <;> simp [eq_comm]

/-- What `read` makes of the value under a key, which has to be there and not `null`. -/
def readPart (record : Json) (field : String) (read : Json → Except Failure α) :
    Except Failure α :=
  requiredField record field >>= read

theorem requiredField_eq : requiredField record field = match record.given? field with
    | some value => .ok value
    | none => .error (.missingField "trigger" field) := by
  unfold requiredField Json.given?
  cases record.get? field with
  | none => rfl
  | some value => cases value <;> rfl

theorem readPart_iff {read : Json → Except Failure α} {a : α} :
    readPart record field read = .ok a ↔
      ∃ value, record.given? field = some value ∧ read value = .ok a := by
  rw [readPart, requiredField_eq]
  cases record.given? field <;> simp [bind, Except.bind]

theorem readPart_error_iff {read : Json → Except Failure α} :
    readPart record field read = .error f ↔
      (record.given? field = none ∧ f = .missingField "trigger" field) ∨
        ∃ value, record.given? field = some value ∧ read value = .error f := by
  rw [readPart, requiredField_eq]
  cases record.given? field <;> simp [bind, Except.bind, eq_comm]

section
variable {convert : Json → Option α} {write : α → Json}

theorem optionalField_eq : optionalField record field wanted convert =
    match record.given? field with
    | none => .ok none
    | some value =>
      match convert value with
      | some a => .ok (some a)
      | none => .error (.malformed "trigger" (.wrongField field wanted value.render)) := by
  unfold optionalField Json.given?
  cases record.get? field with
  | none => rfl
  | some value => cases value <;> rfl

theorem optionalField_iff (hconvert : ∀ value a, convert value = some a ↔ value = write a)
    {a : Option α} : optionalField record field wanted convert = .ok a ↔
      record.given? field = a.map write := by
  rw [optionalField_eq]
  cases record.given? field with
  | none => cases a <;> simp
  | some value =>
    cases h : convert value with
    | none =>
      have hw : ∀ a, value ≠ write a := fun a he => by simp [(hconvert value a).2 he] at h
      cases a <;> simp [h, hw]
    | some b =>
      obtain rfl := (hconvert value b).1 h
      have hw : ∀ a, write b = write a ↔ b = a := fun a => by simp [← hconvert, h]
      cases a <;> simp [h, hw]

theorem optionalField_error_iff
    (hconvert : ∀ value a, convert value = some a ↔ value = write a) :
    optionalField record field wanted convert = .error f ↔
      ∃ value, record.given? field = some value ∧ (∀ a, value ≠ write a) ∧
        f = .malformed "trigger" (.wrongField field wanted value.render) := by
  simp only [ne_eq, ← hconvert, ← Option.eq_none_iff_forall_ne_some]
  rw [optionalField_eq]
  cases record.given? field with
  | none => simp
  | some value => cases h : convert value <;> simp [h, eq_comm]

end
end

/-! ## Links -/

/-- What is checked of the record of a link before its next link. -/
inductive LinkCheck where
  | event
  | condition
  | reaction
  | label
  | source
  | cooldown
  deriving DecidableEq, Repr

/-- The checks in the order in which they are made. -/
def LinkCheck.all : List LinkCheck :=
  [.event, .condition, .reaction, .label, .source, .cooldown]

/-- The part under a key is not given, or what is given is refused. -/
def PartFails {α : Type} (record : Json) (field : String) (read : Json → Except Failure α)
    (f : Failure) : Prop :=
  (record.given? field = none ∧ f = .missingField "trigger" field) ∨
    ∃ value, record.given? field = some value ∧ read value = .error f

/-- What is given under a key is not what `write` writes. -/
def Mistyped {α : Type} (record : Json) (field wanted : String) (write : α → Json)
    (f : Failure) : Prop :=
  ∃ value, record.given? field = some value ∧ (∀ a, value ≠ write a) ∧
    f = .malformed "trigger" (.wrongField field wanted value.render)

namespace Vocabulary

variable {κ : Type} {v : Vocabulary κ} {record : Json} {l : Link κ} {f : Failure}

/-- The record describes a link: its event is a text, its condition and its reaction can be read,
and label, origin and cooldown are of their types as far as they are given. Without a label the
link is named after its event and its reaction. -/
structure Describes (v : Vocabulary κ) (record : Json) (l : Link κ) : Prop where
  event : record.given? "event_type" = some (.string l.event)
  condition : ∃ value, record.given? "condition" = some value ∧
    v.readCondition value = .ok l.condition
  reaction : ∃ value, record.given? "reaction" = some value ∧ v.readReaction value = .ok l.reaction
  label : ∃ given : Option String, record.given? "label" = given.map .string ∧
    l.label = given.getD (l.event ++ ":" ++ l.reaction.tag)
  source : record.given? "source" = l.source.map .string
  cooldown : record.given? "cooldown" = l.cooldown.map .ofUInt64
  lastFired : l.lastFired = none

/-- The record fails a check with a failure. -/
def Fails (v : Vocabulary κ) (record : Json) (f : Failure) : LinkCheck → Prop
  | .event => (∀ text, record.given? "event_type" ≠ some (.string text)) ∧
    f = .missingField "trigger" "event_type"
  | .condition => PartFails record "condition" v.readCondition f
  | .reaction => PartFails record "reaction" v.readReaction f
  | .label => Mistyped record "label" "a string" .string f
  | .source => Mistyped record "source" "a string" .string f
  | .cooldown => Mistyped record "cooldown" "a non-negative integer" .ofUInt64 f

/-- The first of the checks that the record fails, it fails with the given failure. -/
def FirstFault (v : Vocabulary κ) (record : Json) (f : Failure) : List LinkCheck → Prop
  | [] => False
  | check :: later => v.Fails record f check ∨
    (∀ f', ¬v.Fails record f' check) ∧ v.FirstFault record f later

/-- The record does not describe a link, and the failure says why. -/
def Faulty (v : Vocabulary κ) (record : Json) (f : Failure) : Prop :=
  v.FirstFault record f LinkCheck.all

/-- A link is read in six steps, one for each check. -/
theorem readLink_eq : v.readLink record = (do
    let event ← textField record "trigger" "event_type"
    let condition ← readPart record "condition" v.readCondition
    let reaction ← readPart record "reaction" v.readReaction
    let label ← optionalField record "label" "a string" Json.asString?
    let source ← optionalField record "source" "a string" Json.asString?
    let cooldown ← optionalField record "cooldown" "a non-negative integer" Json.asUInt64?
    let link := Link.new event condition reaction
    pure { link with label := label.getD link.label, source, cooldown }) := by
  simp only [readLink, readPart, bind_assoc]

theorem readLink_iff : v.readLink record = .ok l ↔ v.Describes record l := by
  simp only [readLink_eq, bind_eq_ok, textField_iff, readPart_iff,
    optionalField_iff (fun _ _ => Json.asString?_eq_some),
    optionalField_iff (fun _ _ => Json.asUInt64?_eq_some)]
  constructor
  · rintro ⟨event, hevent, c, hc, r, hr, label, hlabel, source, hsource, cooldown, hcooldown, h⟩
    cases h
    exact ⟨hevent, hc, hr, ⟨label, hlabel, rfl⟩, hsource, hcooldown, rfl⟩
  · rintro ⟨hevent, hc, hr, ⟨label, hlabel, hl⟩, hsource, hcooldown, hfired⟩
    refine ⟨_, hevent, _, hc, _, hr, label, hlabel, _, hsource, _, hcooldown, ?_⟩
    obtain ⟨event, c, r, name, source, cooldown, fired⟩ := l
    simp only at hl hfired
    rw [hl, hfired]
    rfl

/-- A step that makes one check, before steps that make the later ones whatever it gives. -/
theorem bind_eq_error_iff_firstFault {α β : Type} {x : Except Failure α} {g : α → Except Failure β}
    {check : LinkCheck} {later : List LinkCheck}
    (hx : ∀ f, x = .error f ↔ v.Fails record f check)
    (hg : ∀ a f, g a = .error f ↔ v.FirstFault record f later) (f : Failure) :
    (x >>= g) = .error f ↔ v.FirstFault record f (check :: later) := by
  rw [bind_eq_error, FirstFault]
  simp only [← hx, hg]
  cases x <;> simp

theorem readLink_error_iff : v.readLink record = .error f ↔ v.Faulty record f := by
  have htext : ∀ value text, Json.asString? value = some text ↔ value = .string text :=
    fun _ _ => Json.asString?_eq_some
  rw [readLink_eq]
  refine bind_eq_error_iff_firstFault (fun _ => textField_error_iff) (fun event => ?_) f
  refine bind_eq_error_iff_firstFault (fun _ => readPart_error_iff) fun c => ?_
  refine bind_eq_error_iff_firstFault (fun _ => readPart_error_iff) fun r => ?_
  refine bind_eq_error_iff_firstFault (fun _ => optionalField_error_iff htext) fun label => ?_
  refine bind_eq_error_iff_firstFault (fun _ => optionalField_error_iff htext) fun source => ?_
  refine bind_eq_error_iff_firstFault
    (fun _ => optionalField_error_iff fun _ _ => Json.asUInt64?_eq_some) fun cooldown f => ?_
  exact ⟨nofun, False.elim⟩

end Vocabulary

/-! ## Chains -/

/-- The record of the link that is `k` links after that of the record itself. -/
def Json.link? : Json → Nat → Option Json
  | first, 0 => some first
  | first, k + 1 => (first.given? "next_trigger").bind (·.link? k)

theorem Json.link?_succ (first : Json) (k : Nat) :
    first.link? (k + 1) = (first.given? "next_trigger").bind (·.link? k) := rfl

namespace Vocabulary

variable {κ : Type} {v : Vocabulary κ} {limit : UInt64} {record : Json} {f : Failure}

/-- The first `n` links that the record leads to are there and are described. -/
def Sound (v : Vocabulary κ) (record : Json) (n : Nat) : Prop :=
  ∀ j < n, ∃ r l, record.link? j = some r ∧ v.Describes r l

/-- After `k` sound links comes another one, with a record that may be anything. -/
def Reaches (v : Vocabulary κ) (record : Json) (k : Nat) (next : Json) : Prop :=
  v.Sound record k ∧ record.link? k = some next

/-- The record describes the links, one after the other, and leads to no further one. -/
structure Depicts (v : Vocabulary κ) (record : Json) (links : List (Link κ)) : Prop where
  described : ∀ j l, links[j]? = some l → ∃ r, record.link? j = some r ∧ v.Describes r l
  ends : record.link? links.length = none

theorem readChain_eq (n : Nat) : v.readChain limit (n + 1) record = (v.readLink record >>= fun l =>
    match record.given? "next_trigger" with
    | none => .ok ⟨l, []⟩
    | some next => (v.readChain limit n next).map fun rest => ⟨l, rest.links⟩) := by
  rw [readChain, Json.given?]
  cases record.get? "next_trigger" with
  | none => rfl
  | some next => cases next <;> rfl

theorem depicts_cons {l : Link κ} {rest : List (Link κ)} : v.Depicts record (l :: rest) ↔
    v.Describes record l ∧ match record.given? "next_trigger" with
      | none => rest = []
      | some next => v.Depicts next rest := by
  constructor
  · rintro ⟨hdescribed, hends⟩
    obtain ⟨r, hr, hl⟩ := hdescribed 0 l rfl
    cases hr
    refine ⟨hl, ?_⟩
    cases h : record.given? "next_trigger" with
    | none =>
      refine List.eq_nil_iff_forall_not_mem.2 fun l' hl' => ?_
      obtain ⟨j, hj⟩ := List.mem_iff_getElem?.1 hl'
      obtain ⟨r, hr, -⟩ := hdescribed (j + 1) l' hj
      rw [Json.link?_succ, h] at hr
      cases hr
    | some next =>
      rw [List.length_cons, Json.link?_succ, h] at hends
      refine ⟨fun j l' hj => ?_, hends⟩
      obtain ⟨r, hr, hl'⟩ := hdescribed (j + 1) l' hj
      rw [Json.link?_succ, h] at hr
      exact ⟨r, hr, hl'⟩
  · rintro ⟨hl, hrest⟩
    cases h : record.given? "next_trigger" with
    | none =>
      simp only [h] at hrest
      subst hrest
      refine ⟨fun j l' hj => ?_, by rw [List.length_singleton, Json.link?_succ, h]; rfl⟩
      obtain ⟨rfl, rfl⟩ : j = 0 ∧ l = l' := by simpa [List.getElem?_singleton] using hj
      exact ⟨record, rfl, hl⟩
    | some next =>
      simp only [h] at hrest
      refine ⟨fun j l' hj => ?_, by rw [List.length_cons, Json.link?_succ, h]; exact hrest.ends⟩
      cases j with
      | zero =>
        cases hj
        exact ⟨record, rfl, hl⟩
      | succ j =>
        rw [Json.link?_succ, h]
        exact hrest.described j l' hj

theorem not_depicts_nil : ¬v.Depicts record [] := fun h => nomatch h.ends

theorem readChain_iff {n : Nat} {t : Trigger κ} :
    v.readChain limit n record = .ok t ↔ t.length ≤ n ∧ v.Depicts record t.links := by
  induction n generalizing record t with
  | zero => exact ⟨nofun, fun h => absurd h.1 (Nat.not_succ_le_zero _)⟩
  | succ n ih =>
    obtain ⟨l, rest⟩ := t
    rw [readChain_eq, bind_eq_ok, Trigger.links, depicts_cons]
    simp only [readLink_iff]
    cases record.given? "next_trigger" with
    | none =>
      constructor
      · rintro ⟨l, hl, h⟩
        cases h
        exact ⟨Nat.le_add_left 1 n, hl, rfl⟩
      · rintro ⟨-, hl, rfl⟩
        exact ⟨l, hl, rfl⟩
    | some next =>
      constructor
      · rintro ⟨l, hl, h⟩
        obtain ⟨t, ht, h⟩ := map_eq_ok.1 h
        cases h
        obtain ⟨hle, hdepicts⟩ := ih.1 ht
        exact ⟨Nat.succ_le_succ hle, hl, hdepicts⟩
      · rintro ⟨hle, hl, hrest⟩
        cases rest with
        | nil => exact absurd hrest not_depicts_nil
        | cons l' rest =>
          exact ⟨l, hl, map_eq_ok.2 ⟨⟨l', rest⟩, ih.2 ⟨Nat.le_of_succ_le_succ hle, hrest⟩, rfl⟩⟩

theorem Depicts.sound {links : List (Link κ)} (h : v.Depicts record links) :
    v.Sound record links.length := by
  intro j hj
  obtain ⟨r, hr, hl⟩ := h.described j _ (List.getElem?_eq_getElem hj)
  exact ⟨r, _, hr, hl⟩

theorem exists_depicts {n : Nat} (hsound : v.Sound record n) (hends : record.link? n = none) :
    ∃ links : List (Link κ), links.length = n ∧ v.Depicts record links := by
  choose r l hr hl using hsound
  refine ⟨List.ofFn fun j : Fin n => l j j.isLt, List.length_ofFn, fun j l' hj => ?_, ?_⟩
  · obtain ⟨hlt, rfl⟩ := List.getElem?_eq_some_iff.1 hj
    rw [List.length_ofFn] at hlt
    rw [List.getElem_ofFn]
    exact ⟨r j hlt, hr j hlt, hl j hlt⟩
  · rw [List.length_ofFn, hends]

theorem reaches_zero {next : Json} : v.Reaches record 0 next ↔ next = record := by
  simp [Reaches, Sound, Json.link?, eq_comm]

theorem reaches_succ {k : Nat} {next : Json} : v.Reaches record (k + 1) next ↔
    (∃ l, v.Describes record l) ∧
      ∃ second, record.given? "next_trigger" = some second ∧ v.Reaches second k next := by
  constructor
  · rintro ⟨hsound, hlink⟩
    obtain ⟨second, hsecond, hlink⟩ := Option.bind_eq_some_iff.1 hlink
    obtain ⟨r, l, hr, hl⟩ := hsound 0 k.succ_pos
    cases hr
    refine ⟨⟨l, hl⟩, second, hsecond, fun j hj => ?_, hlink⟩
    have hj := hsound (j + 1) (Nat.succ_lt_succ hj)
    rwa [Json.link?_succ, hsecond] at hj
  · rintro ⟨⟨l, hl⟩, second, hsecond, hsound, hlink⟩
    refine ⟨fun j hj => ?_, by rw [Json.link?_succ, hsecond]; exact hlink⟩
    cases j with
    | zero => exact ⟨record, l, rfl, hl⟩
    | succ j =>
      rw [Json.link?_succ, hsecond]
      exact hsound j (Nat.lt_of_succ_lt_succ hj)

theorem readChain_error_iff {n : Nat} : v.readChain limit n record = .error f ↔
    (∃ k < n, ∃ r, v.Reaches record k r ∧ v.Faulty r f) ∨
      f = .chainTooDeep limit ∧ ∃ r, v.Reaches record n r := by
  induction n generalizing record with
  | zero => simp [readChain, reaches_zero, eq_comm]
  | succ n ih =>
    -- the link at fault is the first one, or it is one that the next record reaches
    have hshift : (∃ k < n + 1, ∃ r, v.Reaches record k r ∧ v.Faulty r f) ↔ v.Faulty record f ∨
        (∃ l, v.Describes record l) ∧ ∃ next, record.given? "next_trigger" = some next ∧
          ∃ k < n, ∃ r, v.Reaches next k r ∧ v.Faulty r f := by
      constructor
      · rintro ⟨k, hk, r, hr, hf⟩
        cases k with
        | zero => exact .inl (reaches_zero.1 hr ▸ hf)
        | succ k =>
          obtain ⟨hl, next, hnext, hr⟩ := reaches_succ.1 hr
          exact .inr ⟨hl, next, hnext, k, Nat.lt_of_succ_lt_succ hk, r, hr, hf⟩
      · rintro (hf | ⟨hl, next, hnext, k, hk, r, hr, hf⟩)
        · exact ⟨0, n.succ_pos, record, reaches_zero.2 rfl, hf⟩
        · exact ⟨k + 1, Nat.succ_lt_succ hk, r, reaches_succ.2 ⟨hl, next, hnext, hr⟩, hf⟩
    rw [hshift, readChain_eq, bind_eq_error, readLink_error_iff]
    simp only [readLink_iff, reaches_succ]
    cases record.given? "next_trigger" with
    | none => simp
    | some next =>
      have hmap (l : Link κ) : (v.readChain limit n next).map (fun rest =>
          (⟨l, rest.links⟩ : Trigger κ)) = .error f ↔ v.readChain limit n next = .error f := by
        cases v.readChain limit n next <;> simp [Except.map]
      simp only [hmap, ih]
      grind

end Vocabulary

/-! ## Failures of makers -/

/-- A maker of the catalog refuses some arguments with the failure. -/
def Catalog.Answers {α : Type} (c : Catalog α) (f : Failure) : Prop :=
  ∃ entry ∈ c.makers, ∃ args, entry.2 args = .error f

/-- A maker of the vocabulary refuses some arguments with the failure. -/
def Vocabulary.Answers {κ : Type} (v : Vocabulary κ) (f : Failure) : Prop :=
  v.conditions.Answers f ∨ v.reactions.Answers f

section
variable {κ α : Type} {v : Vocabulary κ} {record : Json} {limit : UInt64}

theorem Catalog.answers_of_make {c : Catalog α} {tag : String} {args : Json}
    (h : c.make tag args = .error (.chainTooDeep limit)) : c.Answers (.chainTooDeep limit) := by
  unfold make at h
  split at h
  next maker hmaker =>
    obtain ⟨before, after, hmakers, -⟩ := List.lookup_eq_some_iff.1 hmaker
    exact ⟨(tag, maker), by simp [hmakers], args, h⟩
  next => cases h

theorem builtin_ne_chainTooDeep {tag name : String} {reader : Json.RecordReader α} {args : Json} :
    builtin tag name reader args ≠ .error (.chainTooDeep limit) := by
  unfold builtin
  split <;> nofun

theorem textField_ne_chainTooDeep {kind field : String} :
    textField record kind field ≠ .error (.chainTooDeep limit) := by
  unfold textField
  split <;> nofun

namespace Vocabulary

theorem answers_of_readCondition (h : v.readCondition record = .error (.chainTooDeep limit)) :
    v.Answers (.chainTooDeep limit) := by
  obtain h | ⟨tag, -, h⟩ := bind_eq_error.1 h
  · exact absurd h textField_ne_chainTooDeep
  split at h
  · obtain h | ⟨name, -, h⟩ := bind_eq_error.1 h
    · exact absurd h textField_ne_chainTooDeep
    · split at h <;> cases h
  split at h
  · split at h <;> cases h
  · exact .inl (Catalog.answers_of_make h)

theorem answers_of_readReaction (h : v.readReaction record = .error (.chainTooDeep limit)) :
    v.Answers (.chainTooDeep limit) := by
  obtain h | ⟨tag, -, h⟩ := bind_eq_error.1 h
  · exact absurd h textField_ne_chainTooDeep
  split at h
  · obtain h | ⟨name, -, h⟩ := bind_eq_error.1 h
    · exact absurd h textField_ne_chainTooDeep
    · split at h <;> cases h
  · exact .inr (Catalog.answers_of_make h)

theorem answers_of_fails {check : LinkCheck}
    (h : v.Fails record (.chainTooDeep limit) check) : v.Answers (.chainTooDeep limit) := by
  cases check with
  | event => cases h.2
  | condition =>
    obtain ⟨-, h⟩ | ⟨value, -, h⟩ := h
    · cases h
    · exact answers_of_readCondition h
  | reaction =>
    obtain ⟨-, h⟩ | ⟨value, -, h⟩ := h
    · cases h
    · exact answers_of_readReaction h
  | label | source | cooldown =>
    obtain ⟨value, -, -, h⟩ := h
    cases h

theorem answers_of_firstFault {checks : List LinkCheck}
    (h : v.FirstFault record (.chainTooDeep limit) checks) : v.Answers (.chainTooDeep limit) := by
  induction checks with
  | nil => exact h.elim
  | cons check later ih =>
    obtain h | ⟨-, h⟩ := h
    · exact answers_of_fails h
    · exact ih h

/-- No built-in maker complains about the depth of a chain. -/
theorem not_answers_of_builtin (functions : Functions κ) :
    ¬(⟨.conditions, .reactions, functions⟩ : Vocabulary κ).Answers (.chainTooDeep limit) := by
  rintro (⟨entry, hentry, args, h⟩ | ⟨entry, hentry, args, h⟩)
  · simp only [Catalog.conditions, List.mem_cons, List.not_mem_nil, or_false] at hentry
    obtain rfl | rfl := hentry
    · cases h
    · exact builtin_ne_chainTooDeep h
  · simp only [Catalog.reactions, List.mem_cons, List.not_mem_nil, or_false] at hentry
    obtain rfl | rfl | rfl | rfl := hentry
    all_goals exact builtin_ne_chainTooDeep h

/-! ## Triggers -/

/-- Which triggers and which failures a vocabulary reads off a record. -/
structure ReadsExactly (v : Vocabulary κ) (limit : UInt64) (record : Json) : Prop where
  /-- There are `n` links exactly if following the record gives `n` links that are described and no
  further one, with `n` from one to the limit. -/
  accepted : ∀ n, (∃ t, v.readTrigger limit record = .ok t ∧ t.length = n) ↔
    1 ≤ n ∧ n ≤ limit.toNat ∧ v.Sound record n ∧ record.link? n = none
  /-- The links of the trigger are the described ones. -/
  links : ∀ t, v.readTrigger limit record = .ok t ↔
    t.length ≤ limit.toNat ∧ v.Depicts record t.links
  /-- Otherwise the failure is that of the first link at fault among those within the limit, or that
  the chain is too deep, if there is none and a further link follows. -/
  refused : ∀ f, v.readTrigger limit record = .error f ↔
    (∃ k < limit.toNat, ∃ r, v.Reaches record k r ∧ v.Faulty r f) ∨
      f = .chainTooDeep limit ∧ ∃ r, v.Reaches record limit.toNat r
  /-- So the chain is called too deep if it is, or if the first link at fault says so, -/
  tooDeep : ∀ bound, v.readTrigger limit record = .error (.chainTooDeep bound) ↔
    (bound = limit ∧ ∃ r, v.Reaches record limit.toNat r) ∨
      ∃ k < limit.toNat, ∃ r, v.Reaches record k r ∧ v.Faulty r (.chainTooDeep bound)
  /-- which it does only if one of the makers does, -/
  claimed : ∀ r bound, v.Faulty r (.chainTooDeep bound) → v.Answers (.chainTooDeep bound)
  /-- and no built-in one does. -/
  builtin : ∀ functions bound,
    ¬(⟨.conditions, .reactions, functions⟩ : Vocabulary κ).Answers (.chainTooDeep bound)
  nothing : v.readTrigger 0 record = .error (.chainTooDeep 0)

/-- So every vocabulary reads every record, whatever makers were added to it. -/
theorem readTrigger_accepts_exactly (v : Vocabulary κ) (limit : UInt64) (record : Json) :
    v.ReadsExactly limit record where
  accepted n := by
    constructor
    · rintro ⟨t, ht, rfl⟩
      obtain ⟨hle, hdepicts⟩ := readChain_iff.1 ht
      exact ⟨Nat.le_add_left 1 _, hle, hdepicts.sound, hdepicts.ends⟩
    · rintro ⟨hpos, hle, hsound, hends⟩
      obtain ⟨links, rfl, hdepicts⟩ := exists_depicts hsound hends
      obtain ⟨l, rest, rfl⟩ := List.exists_cons_of_length_pos hpos
      exact ⟨⟨l, rest⟩, readChain_iff.2 ⟨hle, hdepicts⟩, rfl⟩
  links t := readChain_iff
  refused f := readChain_error_iff
  tooDeep bound := by
    rw [readTrigger, readChain_error_iff, or_comm, Failure.chainTooDeep.injEq]
  claimed r bound := answers_of_firstFault
  builtin functions bound := not_answers_of_builtin functions
  nothing := rfl

/-- A vocabulary to which two makers of reactions were added: one refuses everything and blames the
depth of the chain, and one makes a built-in reaction under a tag of its own. -/
def grumbling : Vocabulary Unit :=
  { Vocabulary.builtin with reactions := {
      kind := .reaction
      makers := Catalog.reactions.makers ++
        [("grumble", fun _ => .error (.chainTooDeep 32)),
          ("ring", fun _ => .ok (.alert "ding"))] } }

/-- The record of a single link that names a reaction. -/
def singleLink (reaction : String) : Json :=
  .record [("event_type", .string "bell"), ("condition", taggedRecord "AlwaysTrue" []),
    ("reaction", taggedRecord reaction [])]

/-- Both makers can be added. A chain of one link is called too deep then, and a link is not
labelled after the tag under which its reaction is recorded. -/
theorem readTrigger_grumbles :
    (Vocabulary.builtin (κ := Unit)).reactions.register "grumble"
        (fun _ => .error (.chainTooDeep 32)) >>= (·.register "ring" fun _ => .ok (.alert "ding")) =
      .ok grumbling.reactions ∧
    (singleLink "grumble").link? 1 = none ∧
    grumbling.readTrigger 32 (singleLink "grumble") = .error (.chainTooDeep 32) ∧
    (grumbling.readTrigger 32 (singleLink "ring")).map (·.head.label) =
      .ok "bell:AlertGamemaster" ∧
    ¬∀ (v : Vocabulary Unit) (limit : UInt64) (record : Json),
      (∃ bound, v.readTrigger limit record = .error (.chainTooDeep bound)) ↔
        ∃ r, v.Reaches record limit.toNat r := by
  have hone : (singleLink "grumble").link? 1 = none := by decide +kernel
  have hdeep : grumbling.readTrigger 32 (singleLink "grumble") = .error (.chainTooDeep 32) := rfl
  refine ⟨rfl, hone, hdeep, rfl, fun hall => ?_⟩
  -- within a limit of thirty-two there would have to be a second link
  obtain ⟨_, hsound, -⟩ := (hall grumbling 32 (singleLink "grumble")).1 ⟨32, hdeep⟩
  obtain ⟨_, _, hsecond, -⟩ := hsound 1 (by decide)
  rw [hone] at hsecond
  cases hsecond

end Vocabulary

end

end Encounter
