import Encounter.Trigger.Vocabulary

/-!
# Directories

A vocabulary as it is kept: the makers of the tagged parts in two tables, a map in which a maker is
found by its tag, and the tags in the order of their registration. `Directory.catalog` puts the two
together again. `Entry` is what can be asked of a vocabulary, and what is refused leaves it as it
was. That the two tables stay in step is a theorem, `Lexicon.InStep.enterAll`.
-/

set_option autoImplicit false

namespace Encounter

/-! ## Makers in two tables -/

/-- Makers by tag, and beside them the tags in the order of registration. -/
structure Directory (α : Type) where
  kind : PartKind
  makers : Std.ExtTreeMap String (Maker α)
  order : List String

namespace Directory

variable {α : Type}

/-- A directory without makers. -/
def empty (kind : PartKind) : Directory α :=
  ⟨kind, ∅, []⟩

/-- Puts a maker in both tables. -/
def put (d : Directory α) (tag : String) (maker : Maker α) : Directory α :=
  { d with makers := d.makers.insert tag maker, order := d.order ++ [tag] }

/-- Is there a maker of this tag? -/
def contains (d : Directory α) (tag : String) : Bool :=
  d.makers.contains tag

/-- Adds a maker. The tag of functions and a tag that is taken are refused. -/
def register (d : Directory α) (tag : String) (maker : Maker α) : Except Failure (Directory α) :=
  if tag = functionTag ∨ d.contains tag then .error (.registration (.typeTaken d.kind tag))
  else .ok (d.put tag maker)

/-- Makes a part from its tag and arguments. -/
def make (d : Directory α) (tag : String) (args : Json) : Except Failure α :=
  match d.makers[tag]? with
  | some maker => maker args
  | none => .error (.unknownType d.kind tag)

/-- The makers in the order of registration. -/
def catalog (d : Directory α) : Catalog α where
  kind := d.kind
  makers := d.order.filterMap fun tag => d.makers[tag]?.map (tag, ·)

/-- Puts several makers in, one after the other. -/
def putAll (d : Directory α) (makers : List (String × Maker α)) : Directory α :=
  makers.foldl (fun d (tag, maker) => d.put tag maker) d

/-- A directory with the given makers. -/
def ofCatalog (c : Catalog α) : Directory α :=
  (empty c.kind).putAll c.makers

end Directory

/-! ## Entries -/

/-- What can be entered in a vocabulary. -/
inductive Entry (κ : Type) where
  | conditionType (tag : String) (maker : Maker (Condition κ))
  | reactionType (tag : String) (maker : Maker (Reaction κ))
  | condition (name : String) (code : κ)
  | reaction (name : String) (code : κ)

namespace Vocabulary

variable {κ : Type}

/-- Makes an entry, or refuses it. -/
def enter (v : Vocabulary κ) : Entry κ → Except Failure (Vocabulary κ)
  | .conditionType tag maker =>
    (v.conditions.register tag maker).map fun conditions => { v with conditions }
  | .reactionType tag maker =>
    (v.reactions.register tag maker).map fun reactions => { v with reactions }
  | .condition name code =>
    (v.functions.addCondition name code).map fun (_, functions) => { v with functions }
  | .reaction name code =>
    (v.functions.addReaction name code).map fun (_, functions) => { v with functions }

/-- Makes entries, in order, apart from those that are refused. -/
def enterAll (v : Vocabulary κ) (entries : List (Entry κ)) : Vocabulary κ :=
  entries.foldl (fun v entry => match v.enter entry with
    | .ok v => v
    | .error _ => v) v

end Vocabulary

/-- A vocabulary with its makers in directories. -/
structure Lexicon (κ : Type) where
  conditions : Directory (Condition κ)
  reactions : Directory (Reaction κ)
  functions : Functions κ

namespace Lexicon

variable {κ : Type}

/-- The lexicon of the built-in conditions and reactions. -/
def builtin : Lexicon κ :=
  ⟨.ofCatalog .conditions, .ofCatalog .reactions, .empty⟩

/-- What records can refer to. -/
def vocabulary (l : Lexicon κ) : Vocabulary κ :=
  ⟨l.conditions.catalog, l.reactions.catalog, l.functions⟩

/-- Makes an entry, or refuses it. -/
def enter (l : Lexicon κ) : Entry κ → Except Failure (Lexicon κ)
  | .conditionType tag maker =>
    (l.conditions.register tag maker).map fun conditions => { l with conditions }
  | .reactionType tag maker =>
    (l.reactions.register tag maker).map fun reactions => { l with reactions }
  | .condition name code =>
    (l.functions.addCondition name code).map fun (_, functions) => { l with functions }
  | .reaction name code =>
    (l.functions.addReaction name code).map fun (_, functions) => { l with functions }

/-- Makes entries, in order, apart from those that are refused. -/
def enterAll (l : Lexicon κ) (entries : List (Entry κ)) : Lexicon κ :=
  entries.foldl (fun l entry => match l.enter entry with
    | .ok l => l
    | .error _ => l) l

end Lexicon

end Encounter
