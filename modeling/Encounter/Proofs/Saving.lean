import Encounter.Engine.Save
import Encounter.Proofs.RoundTrip

/-!
# Records of entities are lossless

What is read from the record of an entity is what was written there, its triggers still as records
(`SavedEntity.read_toJson`). An entity can be saved if its triggers are on the shelf
(`Engine.save_eq`), and then the records of its triggers read as `readTrigger_toJson` says of each
of them (`Vocabulary.readTriggers_toJson`).
-/

set_option autoImplicit false

namespace Encounter

/-! ## Reading what was written -/

namespace Json

variable {α β : Type} {entries : List (String × Json)}

/-- A sorted record is read if its reader accepts its entries, key by key. -/
theorem RecordReader.read_record {reader : RecordReader α} {name : String} {a : α}
    (hkeys : (entries.map (·.1)).Nodup)
    (h : reader.Accepts (fun key => lookup key entries) a) :
    reader.read name (.record entries) = .ok a := by
  show (do
    checkEntries reader.fields entries
    checkPresence entries reader.fields
    reader.build _) = _
  rw [checkEntries_eq_ok, checkPresence_eq_ok h.present]
  · exact h.built
  · intro entry he field hf hname
    refine h.checked field hf entry.2 ?_
    rw [hname]
    exact lookup_eq_some hkeys he

theorem readEntries_map {read : Reader α} {write : α → Json}
    (h : ∀ a, read (write a) = .ok a) (items : List (String × α)) :
    readEntries read (items.map fun (key, a) => (key, write a)) = .ok items := by
  induction items with
  | nil => rfl
  | cons item items ih =>
    rw [List.map_cons, readEntries, h, ih]
    rfl

theorem readItems_any (items : List Json) : readItems readAny items = .ok items := by
  induction items with
  | nil => rfl
  | cons item items ih =>
    rw [readItems, ih]
    rfl

theorem ofList_toList (map : Std.ExtTreeMap String α) : .ofList map.toList = map := by
  refine Std.ExtTreeMap.ext_getElem? fun key => ?_
  cases h : map[key]? with
  | some a =>
    exact Std.ExtTreeMap.getElem?_ofList_of_mem Std.ReflCmp.compare_self
      Std.ExtTreeMap.distinct_keys_toList (Std.ExtTreeMap.mem_toList_iff_getElem?_eq_some.2 h)
  | none =>
    refine Std.ExtTreeMap.getElem?_ofList_of_contains_eq_false ?_
    rw [← Bool.not_eq_true, List.contains_iff_mem, List.mem_map]
    rintro ⟨entry, hentry, rfl⟩
    have hsome := Std.ExtTreeMap.mem_toList_iff_getElem?_eq_some.1 hentry
    rw [h] at hsome
    cases hsome

theorem readStats_toJson (stats : Stats) : readStats stats.toJson = .ok stats := by
  show (readEntries readInt64 (stats.toList.map fun (key, i) => (key, ofInt64 i))).map _ = _
  rw [readEntries_map readInt64_ofInt64]
  exact congrArg Except.ok (ofList_toList stats)

theorem readVariant_name (kind : EntityKind) :
    readVariant EntityKind.names (.string kind.name) = .ok kind := by
  cases kind <;> rfl

end Json

theorem SavedEntity.read_toJson (saved : SavedEntity) : SavedEntity.read saved.toJson = .ok saved :=
  Json.RecordReader.read_record (by simp) <|
    .seq (.seq (.seq (.map (.required rfl (readString_string saved.name)))
      (.required rfl (Json.readVariant_name saved.kind)))
      (.withDefault_some rfl (Json.readStats_toJson saved.stats)))
      (.withDefault_some rfl (Json.readItems_any saved.triggers))

section
variable {κ : Type}

theorem Vocabulary.readTriggers_toJson {v : Vocabulary κ} (hv : v.KnowsBuiltins) {limit : UInt64}
    {triggers : List (Trigger κ)}
    (h : ∀ t ∈ triggers, t.length ≤ limit.toNat ∧ t.Known v.functions) :
    v.readTriggers limit (triggers.map Trigger.toJson) =
      .ok (triggers.map (·.recalled v.functions)) := by
  induction triggers with
  | nil => rfl
  | cons t rest ih =>
    obtain ⟨hdepth, hknown⟩ := h t List.mem_cons_self
    have hrest := ih fun t ht => h t (List.mem_cons_of_mem _ ht)
    rw [List.map_cons, readTriggers, readTrigger, readChain_toJson hv hdepth hknown, hrest]
    rfl

/-! ## Saving -/

namespace Engine

variable {e : Engine κ} {x : EntityId}

theorem saveTriggers_eq {ids : List TriggerId} {triggers : List (Trigger κ)}
    (h : ids.map e.shelf.get? = triggers.map some) :
    e.saveTriggers ids = .ok (triggers.map Trigger.toJson) := by
  induction ids generalizing triggers with
  | nil =>
    cases triggers with
    | nil => rfl
    | cons t rest => cases h
  | cons id ids ih =>
    cases triggers with
    | nil => cases h
    | cons t rest =>
      rw [List.map_cons, List.map_cons, List.cons.injEq] at h
      rw [saveTriggers, h.1, ih h.2]
      rfl

/-- What there is to save of an entity. -/
def saved (record : Entity) (triggers : List (Trigger κ)) : SavedEntity :=
  ⟨record.name, record.kind, record.stats, triggers.map Trigger.toJson⟩

/-- An entity whose triggers are on the shelf can be saved. -/
theorem save_eq {record : Entity} {triggers : List (Trigger κ)}
    (hx : e.world.entity? x = some record)
    (h : record.triggers.map e.shelf.get? = triggers.map some) :
    e.save x = .ok (saved record triggers).toJson := by
  rw [save, hx]
  show (e.saveTriggers record.triggers).bind _ = _
  rw [saveTriggers_eq h]
  rfl

end Engine

end

end Encounter
