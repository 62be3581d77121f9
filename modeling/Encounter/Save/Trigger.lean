import Encounter.Save.Plain
import Encounter.Trigger.Vocabulary

/-!
# Records of triggers

A trigger is written as the record of its first link, with the record of the rest of the chain
under `next_trigger`. Skill checks are written flat, functions by their name, and every other part
as a tag with arguments. An origin and a cooldown are written only if there are any.

Reading goes by a vocabulary, takes a link's fields in a fixed order, and counts the links against
the greatest depth. The turn of the last fire is not part of a record.
-/

set_option autoImplicit false

namespace Encounter

variable {κ : Type}

/-! ## Writing -/

/-- The record of a part with arguments. -/
def taggedRecord (tag : String) (args : List (String × Json)) : Json :=
  .record [("args", .ofEntries args), ("type", .string tag)]

/-- The record of a named function. -/
def functionRecord (name : String) : Json :=
  .record [("name", .string name), ("type", .string functionTag)]

/-- The record of a condition. -/
def Condition.toJson : Condition κ → Json
  | .always => taggedRecord "AlwaysTrue" []
  | .perception difficulty => taggedRecord "PerceptionCheck" [("dc", .ofInt64 difficulty)]
  | .skill check =>
    .ofEntries <|
      [("type", .string "SkillCheck"), ("skill", .string check.skill),
        ("dc", .ofInt64 check.difficulty)] ++
      (if check.autoPass then [("auto_pass", .bool true)] else []) ++
      (if check.autoFail then [("auto_fail", .bool true)] else [])
  | .function name _ => functionRecord name

/-- The record of a reaction. -/
def Reaction.toJson : Reaction κ → Json
  | .damage type amount =>
    taggedRecord "ApplyDamage" [("damage_type", .string type), ("amount", .ofInt64 amount)]
  | .alert message => taggedRecord "AlertGamemaster" [("message", .string message)]
  | .sound file => taggedRecord "PlaySound" [("sound_file", .string file)]
  | .schedule turns event =>
    taggedRecord "ScheduleEvent" [("turns", .ofUInt64 turns), ("event_type", .string event)]
  | .function name _ => functionRecord name

/-- The record of a link that is followed by the chain with the given record. -/
def Link.toJson (l : Link κ) (next : Json) : Json :=
  .ofEntries <|
    [("event_type", .string l.event), ("label", .string l.label), ("next_trigger", next),
      ("condition", l.condition.toJson), ("reaction", l.reaction.toJson)] ++
    (match l.source with
      | some source => [("source", .string source)]
      | none => []) ++
    (match l.cooldown with
      | some cooldown => [("cooldown", .ofUInt64 cooldown)]
      | none => [])

/-- The record of the links of a chain, or `null` if there are none. -/
def Link.chainToJson : List (Link κ) → Json
  | [] => .null
  | l :: rest => l.toJson (chainToJson rest)

/-- The record of a trigger. -/
def Trigger.toJson (t : Trigger κ) : Json :=
  Link.chainToJson t.links

/-! ## Reading -/

/-- The text under a key, which has to be there. -/
def textField (record : Json) (kind field : String) : Except Failure String :=
  match (record.get? field).bind Json.asString? with
  | some text => .ok text
  | none => .error (.missingField kind field)

/-- The value under a key of the record of a link, which has to be there and not `null`. -/
def requiredField (record : Json) (field : String) : Except Failure Json :=
  match record.get? field with
  | some .null => .error (.missingField "trigger" field)
  | some value => .ok value
  | none => .error (.missingField "trigger" field)

/-- The value under a key of the record of a link: absent or `null`, or one that `convert`
takes. -/
def optionalField {α : Type} (record : Json) (field wanted : String) (convert : Json → Option α) :
    Except Failure (Option α) :=
  match record.get? field with
  | none => .ok none
  | some .null => .ok none
  | some value =>
    match convert value with
    | some a => .ok (some a)
    | none => .error (.malformed "trigger" (.wrongField field wanted value.render))

/-- The arguments in the record of a part; `null` if there are none. -/
def argsOf (record : Json) : Json :=
  (record.get? "args").getD .null

namespace Vocabulary

/-- Reads the record of a condition. -/
def readCondition (v : Vocabulary κ) (record : Json) : Except Failure (Condition κ) := do
  let tag ← textField record "condition" "type"
  if tag = functionTag then
    let name ← textField record "condition" "name"
    match v.functions.condition? name with
    | some condition => .ok condition
    | none => .error (.unknownFunction .condition name)
  else if tag = "SkillCheck" then
    match SkillCheck.read record with
    | .ok check => .ok (.skill check)
    | .error fault => .error (.malformed tag (.fault fault))
  else v.conditions.make tag (argsOf record)

/-- Reads the record of a reaction. -/
def readReaction (v : Vocabulary κ) (record : Json) : Except Failure (Reaction κ) := do
  let tag ← textField record "reaction" "type"
  if tag = functionTag then
    let name ← textField record "reaction" "name"
    match v.functions.reaction? name with
    | some reaction => .ok reaction
    | none => .error (.unknownFunction .reaction name)
  else v.reactions.make tag (argsOf record)

/-- Reads the record of a link, apart from what follows it. -/
def readLink (v : Vocabulary κ) (record : Json) : Except Failure (Link κ) := do
  let event ← textField record "trigger" "event_type"
  let condition ← v.readCondition (← requiredField record "condition")
  let reaction ← v.readReaction (← requiredField record "reaction")
  let link := Link.new event condition reaction
  let label ← optionalField record "label" "a string" Json.asString?
  let source ← optionalField record "source" "a string" Json.asString?
  let cooldown ← optionalField record "cooldown" "a non-negative integer" Json.asUInt64?
  pure { link with label := label.getD link.label, source, cooldown }

/-- Reads the record of a chain of at most `links` links; a further one is too deep for `limit`. -/
def readChain (v : Vocabulary κ) (limit : UInt64) : Nat → Json → Except Failure (Trigger κ)
  | 0, _ => .error (.chainTooDeep limit)
  | links + 1, record => do
    let head ← v.readLink record
    match record.get? "next_trigger" with
    | none => pure ⟨head, []⟩
    | some .null => pure ⟨head, []⟩
    | some next =>
      let rest ← readChain v limit links next
      pure ⟨head, rest.links⟩

/-- Reads the record of a trigger of at most `limit` links. -/
def readTrigger (v : Vocabulary κ) (limit : UInt64) (record : Json) : Except Failure (Trigger κ) :=
  v.readChain limit limit.toNat record

/-- Reads the records of triggers, up to the first failure. -/
def readTriggers (v : Vocabulary κ) (limit : UInt64) :
    List Json → Except Failure (List (Trigger κ))
  | [] => .ok []
  | record :: rest => do
    let t ← v.readTrigger limit record
    let ts ← readTriggers v limit rest
    pure (t :: ts)

end Vocabulary

end Encounter
