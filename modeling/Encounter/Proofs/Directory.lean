import Encounter.Proofs.Growth

/-!
# Directories stay in step

The map of a directory and its order of tags agree (`Directory.InStep`), whatever is registered. So
a directory is as good as the catalog that it stands for (`Directory.InStep.make_catalog`,
`Directory.InStep.register_catalog`), and a lexicon as good as its vocabulary
(`Lexicon.InStep.enterAll`).
-/

set_option autoImplicit false

namespace Encounter

/-! ## Directories -/

namespace Directory

variable {α : Type} {d d' : Directory α} {tag t : String} {maker : Maker α}

theorem register_eq_ok : d.register tag maker = .ok d' ↔
    tag ≠ functionTag ∧ d.contains tag = false ∧ d' = d.put tag maker := by
  by_cases hf : tag = functionTag <;> cases ht : d.contains tag <;>
    simp [register, hf, ht, eq_comm (a := d')]

theorem getElem?_put :
    (d.put tag maker).makers[t]? = if tag = t then some maker else d.makers[t]? := by
  simp [put, Std.ExtTreeMap.getElem?_insert]

theorem contains_eq : d.contains t = d.makers[t]?.isSome :=
  Std.ExtTreeMap.contains_eq_isSome_getElem?

/-- The tags in order are those in the map, each once. -/
structure InStep (d : Directory α) : Prop where
  once : d.order.Nodup
  listed : ∀ tag, d.contains tag = true ↔ tag ∈ d.order

theorem inStep_empty (kind : PartKind) : (empty (α := α) kind).InStep where
  once := List.nodup_nil
  listed tag := by simp [empty, contains]

theorem InStep.put (h : d.InStep) (hnew : d.contains tag = false) : (d.put tag maker).InStep where
  once := by
    have hout : tag ∉ d.order := fun hin => by
      rw [(h.listed tag).2 hin] at hnew
      cases hnew
    exact List.nodup_append'.2 ⟨h.once, List.nodup_singleton tag, by simpa using hout⟩
  listed t := by
    rw [contains_eq, getElem?_put, show (d.put tag maker).order = d.order ++ [tag] from rfl,
      List.mem_append, List.mem_singleton, ← h.listed, contains_eq]
    by_cases ht : tag = t
    · simp [ht]
    · simp [ht, Ne.symm ht]

theorem InStep.register (h : d.InStep) (hr : d.register tag maker = .ok d') : d'.InStep := by
  obtain ⟨-, hnew, rfl⟩ := register_eq_ok.1 hr
  exact h.put hnew

theorem InStep.tags (h : d.InStep) : d.catalog.tags = d.order := by
  have hall : ∀ order : List String, (∀ t ∈ order, d.contains t = true) →
      (order.filterMap fun t => d.makers[t]?.map (t, ·)).map (·.1) = order := by
    intro order horder
    induction order with
    | nil => rfl
    | cons t order ih =>
      obtain ⟨maker, hm⟩ := Option.isSome_iff_exists.1
        (contains_eq ▸ horder t List.mem_cons_self)
      rw [List.filterMap_cons, hm, Option.map_some, List.map_cons,
        ih fun t ht => horder t (List.mem_cons_of_mem _ ht)]
  exact hall d.order fun t ht => (h.listed t).2 ht

theorem InStep.contains_catalog (h : d.InStep) : d.catalog.contains tag = d.contains tag := by
  rw [Bool.eq_iff_iff, h.listed, Catalog.contains, h.tags, decide_eq_true_iff]

theorem lookup_catalog (order : List String) :
    (order.filterMap fun t => d.makers[t]?.map (t, ·)).lookup tag =
      if tag ∈ order then d.makers[tag]? else none := by
  induction order with
  | nil => rfl
  | cons t order ih =>
    by_cases ht : tag = t
    · subst ht
      cases hm : d.makers[tag]? with
      | none =>
        rw [List.filterMap_cons, hm, Option.map_none, ih, hm]
        simp
      | some maker => simp [hm]
    · cases hm : d.makers[t]? with
      | none => simp [hm, ih, ht]
      | some maker => simp [hm, ih, ht, List.lookup_cons, beq_eq_false_iff_ne.2 ht]

/-- A part is made the same way with both tables as with the list. -/
theorem InStep.make_catalog (h : d.InStep) (args : Json) :
    d.catalog.make tag args = d.make tag args := by
  have hlookup : d.catalog.makers.lookup tag = d.makers[tag]? := by
    refine (lookup_catalog d.order).trans ?_
    split
    · rfl
    · rename_i hout
      rw [← h.listed, contains_eq, Bool.not_eq_true, Option.isSome_eq_false_iff,
        Option.isNone_iff_eq_none] at hout
      exact hout.symm
  rw [Catalog.make, make, hlookup]
  rfl

theorem InStep.put_catalog (h : d.InStep) (hnew : d.contains tag = false) :
    (d.put tag maker).catalog = ⟨d.kind, d.catalog.makers ++ [(tag, maker)]⟩ := by
  have hout : ∀ t ∈ d.order, tag ≠ t := by
    rintro t ht rfl
    rw [(h.listed tag).2 ht] at hnew
    cases hnew
  have hold : (d.order.filterMap fun t => (d.put tag maker).makers[t]?.map (t, ·)) =
      d.order.filterMap fun t => d.makers[t]?.map (t, ·) :=
    List.filterMap_congr fun t ht => by rw [getElem?_put, if_neg (hout t ht)]
  have hlast : (d.put tag maker).makers[tag]? = some maker := by rw [getElem?_put, if_pos rfl]
  show Catalog.mk d.kind ((d.order ++ [tag]).filterMap fun t =>
    (d.put tag maker).makers[t]?.map (t, ·)) = _
  rw [List.filterMap_append, hold, List.filterMap_cons, hlast]
  rfl

/-- The same registrations are accepted, and with the same outcome. -/
theorem InStep.register_catalog (h : d.InStep) :
    (d.register tag maker).map catalog = d.catalog.register tag maker := by
  unfold Directory.register Catalog.register
  rw [h.contains_catalog]
  split
  · rfl
  · rename_i hfree
    rw [not_or, Bool.not_eq_true] at hfree
    exact congrArg Except.ok (h.put_catalog hfree.2)

/-- Makers under new tags come after those that are there. -/
theorem InStep.putAll {makers : List (String × Maker α)} (hd : d.InStep)
    (hnodup : ((d.catalog.makers ++ makers).map (·.1)).Nodup) :
    (d.putAll makers).InStep ∧
      (d.putAll makers).catalog = ⟨d.kind, d.catalog.makers ++ makers⟩ := by
  induction makers generalizing d with
  | nil => exact ⟨hd, by rw [List.append_nil]; rfl⟩
  | cons first makers ih =>
    obtain ⟨tag, maker⟩ := first
    have hnew : d.contains tag = false := by
      rw [← Bool.not_eq_true, hd.listed, ← hd.tags]
      rw [List.map_append, List.map_cons, List.nodup_append'] at hnodup
      exact fun hin => hnodup.2.2 hin List.mem_cons_self
    have hmakers : (d.put tag maker).catalog.makers ++ makers =
        d.catalog.makers ++ (tag, maker) :: makers := by
      rw [hd.put_catalog hnew, List.append_assoc]
      rfl
    obtain ⟨hstep, hcatalog⟩ := ih (hd.put hnew) (hmakers ▸ hnodup)
    exact ⟨hstep, hcatalog.trans (by rw [hmakers]; rfl)⟩

/-- A catalog without repetitions, kept in two tables. -/
theorem ofCatalog_spec (c : Catalog α) (hc : c.tags.Nodup) :
    (ofCatalog c).InStep ∧ (ofCatalog c).catalog = c :=
  (inStep_empty c.kind).putAll hc

end Directory

/-! ## Lexicons -/

namespace Lexicon

variable {κ : Type} {l l' : Lexicon κ} {entry : Entry κ}

/-- Both directories are in step. -/
def InStep (l : Lexicon κ) : Prop :=
  l.conditions.InStep ∧ l.reactions.InStep

theorem inStep_builtin : (builtin : Lexicon κ).InStep :=
  ⟨(Directory.ofCatalog_spec .conditions (by simp [Catalog.tags, Catalog.conditions])).1,
    (Directory.ofCatalog_spec .reactions (by simp [Catalog.tags, Catalog.reactions])).1⟩

theorem vocabulary_builtin : (builtin : Lexicon κ).vocabulary = .builtin := by
  have hc := (Directory.ofCatalog_spec (Catalog.conditions (κ := κ))
    (by simp [Catalog.tags, Catalog.conditions])).2
  have hr := (Directory.ofCatalog_spec (Catalog.reactions (κ := κ))
    (by simp [Catalog.tags, Catalog.reactions])).2
  rw [vocabulary, builtin, hc, hr]
  rfl

/-- An accepted entry puts at most one tag behind the others. -/
theorem InStep.enter (h : l.InStep) (he : l.enter entry = .ok l') : l'.InStep ∧
    l.conditions.order <+: l'.conditions.order ∧ l.reactions.order <+: l'.reactions.order := by
  cases entry with
  | conditionType tag maker =>
    obtain ⟨conditions, hr, rfl⟩ := map_eq_ok.1 he
    refine ⟨⟨h.1.register hr, h.2⟩, ?_, List.prefix_refl _⟩
    obtain ⟨-, -, rfl⟩ := Directory.register_eq_ok.1 hr
    exact List.prefix_append _ [tag]
  | reactionType tag maker =>
    obtain ⟨reactions, hr, rfl⟩ := map_eq_ok.1 he
    refine ⟨⟨h.1, h.2.register hr⟩, List.prefix_refl _, ?_⟩
    obtain ⟨-, -, rfl⟩ := Directory.register_eq_ok.1 hr
    exact List.prefix_append _ [tag]
  | condition name code | reaction name code =>
    obtain ⟨_, -, rfl⟩ := map_eq_ok.1 he
    exact ⟨h, List.prefix_refl _, List.prefix_refl _⟩

/-- The same entries are accepted, and with the same outcome. -/
theorem InStep.vocabulary_enter (h : l.InStep) :
    (l.enter entry).map vocabulary = l.vocabulary.enter entry := by
  cases entry with
  | conditionType tag maker =>
    show _ = (l.conditions.catalog.register tag maker).map _
    rw [← h.1.register_catalog, Lexicon.enter]
    cases l.conditions.register tag maker <;> rfl
  | reactionType tag maker =>
    show _ = (l.reactions.catalog.register tag maker).map _
    rw [← h.2.register_catalog, Lexicon.enter]
    cases l.reactions.register tag maker <;> rfl
  | condition name code =>
    show _ = (l.functions.addCondition name code).map _
    rw [Lexicon.enter]
    cases l.functions.addCondition name code <;> rfl
  | reaction name code =>
    show _ = (l.functions.addReaction name code).map _
    rw [Lexicon.enter]
    cases l.functions.addReaction name code <;> rfl

theorem enterAll_of_ok (h : l.enter entry = .ok l') (entries : List (Entry κ)) :
    l.enterAll (entry :: entries) = l'.enterAll entries := by
  simp only [enterAll, List.foldl_cons, h]

theorem enterAll_of_error {failure : Failure} (h : l.enter entry = .error failure)
    (entries : List (Entry κ)) : l.enterAll (entry :: entries) = l.enterAll entries := by
  simp only [enterAll, List.foldl_cons, h]

/-- Whatever is entered, the tables stay in step, the order of tags only grows at its end, and the
lexicon is the vocabulary with the same entries. -/
theorem InStep.enterAll (entries : List (Entry κ)) {l : Lexicon κ} (h : l.InStep) :
    (l.enterAll entries).InStep ∧
      (l.conditions.order <+: (l.enterAll entries).conditions.order ∧
        l.reactions.order <+: (l.enterAll entries).reactions.order) ∧
      (l.enterAll entries).vocabulary = l.vocabulary.enterAll entries := by
  induction entries generalizing l with
  | nil => exact ⟨h, ⟨List.prefix_refl _, List.prefix_refl _⟩, rfl⟩
  | cons entry entries ih =>
    have hv : (l.enter entry).map vocabulary = _ := h.vocabulary_enter
    cases he : l.enter entry with
    | ok l' =>
      rw [he] at hv
      obtain ⟨h', hc, hr⟩ := h.enter he
      obtain ⟨hstep, ⟨hc', hr'⟩, heq⟩ := ih h'
      rw [enterAll_of_ok he, Vocabulary.enterAll_of_ok hv.symm]
      exact ⟨hstep, ⟨hc.trans hc', hr.trans hr'⟩, heq⟩
    | error failure =>
      rw [he] at hv
      rw [enterAll_of_error he, Vocabulary.enterAll_of_error hv.symm]
      exact ih h

/-- Entries, accepted or refused, leave alone what already reads: a record that gave a trigger gives
the same one, with the same code behind its names. The tags in order only grow at their end, are
listed once each, and are those that are taken. -/
theorem entries_keep_readings (before after : List (Entry κ)) :
    let l := (builtin : Lexicon κ).enterAll before
    let l' := l.enterAll after
    (∀ (limit : UInt64) (record : Json) (t : Trigger κ),
      l.vocabulary.readTrigger limit record = .ok t →
        l'.vocabulary.readTrigger limit record = .ok t) ∧
    (l.conditions.order <+: l'.conditions.order ∧ l.reactions.order <+: l'.reactions.order) ∧
    (l.conditions.order.Nodup ∧ l.reactions.order.Nodup) ∧
    (∀ tag, (l.conditions.contains tag = true ↔ tag ∈ l.conditions.order) ∧
      (l.reactions.contains tag = true ↔ tag ∈ l.reactions.order)) ∧
    -- the parts are made from the maps, and the vocabulary is the one with the same entries
    (∀ tag args, l.vocabulary.conditions.make tag args = l.conditions.make tag args ∧
      l.vocabulary.reactions.make tag args = l.reactions.make tag args) ∧
    l.vocabulary = (Vocabulary.builtin).enterAll before := by
  intro l l'
  obtain ⟨hstep, -, heq⟩ := inStep_builtin.enterAll before
  obtain ⟨-, hgrow, heq'⟩ := hstep.enterAll after
  refine ⟨fun limit record t hr => ?_, hgrow, ⟨hstep.1.once, hstep.2.once⟩,
    fun tag => ⟨hstep.1.listed tag, hstep.2.listed tag⟩,
    fun tag args => ⟨hstep.1.make_catalog args, hstep.2.make_catalog args⟩,
    vocabulary_builtin ▸ heq⟩
  show l'.vocabulary.readTrigger limit record = .ok t
  rw [show l'.vocabulary = l.vocabulary.enterAll after from heq']
  exact (Vocabulary.extends_enterAll _ after).readChain hr

/-- A trigger of a night that howls. -/
def nightRecord : Json :=
  .record [("condition", partRecord "Night" .null), ("event_type", .string "DUSK"),
    ("reaction", .record [("name", .string "howl"), ("type", .string functionTag)])]

/-- The types and the names that the trigger needs. -/
def howling : List (Entry Nat) :=
  Vocabulary.night ++ [.reaction "howl" 7]

/-- Attempts to replace both, and a new type. -/
def usurping : List (Entry Nat) :=
  [.reaction "howl" 8, .conditionType "Night" fun _ => .ok .always,
    .conditionType "Fog" fun _ => .ok .always]

theorem entries_keep_readings_howling :
    (builtin.enterAll howling).vocabulary.readTrigger 1 nightRecord =
      .ok (.new "DUSK" (.perception 3) (.function "howl" 7)) ∧
    ((builtin.enterAll howling).enterAll usurping).vocabulary.readTrigger 1 nightRecord =
      .ok (.new "DUSK" (.perception 3) (.function "howl" 7)) := by
  have hkept := entries_keep_readings howling usurping
  have hread : (builtin.enterAll howling).vocabulary.readTrigger 1 nightRecord =
      .ok (.new "DUSK" (.perception 3) (.function "howl" 7)) := by
    rw [hkept.2.2.2.2.2]
    rfl
  exact ⟨hread, hkept.1 1 nightRecord _ hread⟩

end Lexicon

end Encounter
