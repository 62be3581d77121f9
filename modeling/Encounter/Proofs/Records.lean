import Encounter.Save.Plain

/-!
# Records, key by key

A record answers with what was entered last under a key (`Json.get?_ofEntries`). So a reading of a
record only depends on what was entered: it succeeds if the reader accepts the entries key by key
(`RecordReader.read_ofEntries`), and `RecordReader.Accepts` follows the way in which the reader is
put together. Whole numbers are read back as they were written.
-/

set_option autoImplicit false

namespace Encounter.Json

variable {α β : Type} {key k : String} {value : Json} {entries sorted : List (String × Json)}

/-! ## Entries -/

theorem lookup_putEntry : lookup key (putEntry k value sorted) =
    if k = key then some value else lookup key sorted := by
  induction sorted with
  | nil => rfl
  | cons entry rest ih =>
    obtain ⟨k', value'⟩ := entry
    unfold putEntry
    split
    · rfl
    · split
      · rename_i hk
        subst hk
        simp only [lookup]
        split <;> rfl
      · rename_i hne
        simp only [lookup, ih]
        split
        · rename_i hk'
          rw [if_neg fun hk => hne (hk.trans hk'.symm)]
        · rfl

theorem lookup_append {es es' : List (String × Json)} :
    lookup key (es ++ es') = (lookup key es).or (lookup key es') := by
  induction es with
  | nil => rfl
  | cons entry rest ih =>
    obtain ⟨k, v⟩ := entry
    simp only [List.cons_append, lookup, ih]
    split <;> rfl

theorem lookup_eq_some {entry : String × Json} (hkeys : (entries.map (·.1)).Nodup)
    (h : entry ∈ entries) : lookup entry.1 entries = some entry.2 := by
  induction entries with
  | nil => cases h
  | cons first rest ih =>
    obtain ⟨k, v⟩ := first
    rw [List.map_cons, List.nodup_cons] at hkeys
    rw [lookup]
    obtain rfl | hrest := List.mem_cons.1 h
    · exact if_pos rfl
    · rw [if_neg, ih hkeys.2 hrest]
      rintro rfl
      exact hkeys.1 (List.mem_map.2 ⟨entry, hrest, rfl⟩)

/-- Of several values under one key the last one counts. -/
theorem get?_ofEntries : (ofEntries entries).get? key = lookup key entries.reverse := by
  -- for the induction there may be entries already, which what is entered later hides
  have hfold : ∀ sorted, lookup key (entries.foldl
      (fun sorted entry => putEntry entry.1 entry.2 sorted) sorted) =
        (lookup key entries.reverse).or (lookup key sorted) := by
    induction entries with
    | nil => exact fun _ => rfl
    | cons entry rest ih =>
      obtain ⟨k, v⟩ := entry
      intro sorted
      rw [List.foldl_cons, ih, List.reverse_cons, lookup_append, Option.or_assoc,
        lookup_putEntry]
      simp only [lookup]
      split <;> rfl
  refine (hfold []).trans ?_
  rw [lookup, Option.or_none]

theorem mem_putEntry {entry : String × Json} (h : entry ∈ putEntry k value sorted) :
    entry = (k, value) ∨ entry ∈ sorted := by
  induction sorted with
  | nil => exact .inl (List.mem_singleton.1 h)
  | cons first rest ih =>
    obtain ⟨k', value'⟩ := first
    unfold putEntry at h
    split at h
    · exact List.mem_cons.1 h
    · split at h
      · rcases List.mem_cons.1 h with rfl | h
        · exact .inl rfl
        · exact .inr (List.mem_cons_of_mem _ h)
      · rcases List.mem_cons.1 h with rfl | h
        · exact .inr List.mem_cons_self
        · exact (ih h).imp_right (List.mem_cons_of_mem _)

/-- A record holds nothing that was not entered. -/
theorem mem_of_mem_foldl {entry : String × Json} (h : entry ∈
    entries.foldl (fun sorted entry => putEntry entry.1 entry.2 sorted) sorted) :
    entry ∈ entries ∨ entry ∈ sorted := by
  induction entries generalizing sorted with
  | nil => exact .inr h
  | cons first rest ih =>
    rcases ih h with hr | hs
    · exact .inl (List.mem_cons_of_mem _ hr)
    · rcases mem_putEntry hs with rfl | hs
      · exact .inl List.mem_cons_self
      · exact .inr hs

/-! ## Numbers -/

theorem readInt64_ofInt64 (i : Int64) : readInt64 (.ofInt64 i) = .ok i := by
  have hle := i.le_toInt
  have hlt := i.toInt_lt
  have hin : -0x8000000000000000 ≤ i.toInt ∧ i.toInt ≤ 0x7fffffffffffffff := by omega
  simp [readInt64, ofInt64, readInt, hin, Except.map]

theorem readUInt64_ofUInt64 (n : UInt64) : readUInt64 (.ofUInt64 n) = .ok n := by
  have hlt := n.toNat_lt
  have hin : (n.toNat : Int) ≤ 0xffffffffffffffff := by omega
  simp [readUInt64, ofUInt64, readInt, hin, Except.map]

theorem asUInt64?_ofUInt64 (n : UInt64) : (ofUInt64 n).asUInt64? = some n := by
  have hlt := n.toNat_lt
  have hin : (n.toNat : Int) < 0x10000000000000000 := by omega
  simp [ofUInt64, asUInt64?, hin]

/-! ## Records of known fields -/

namespace RecordReader

variable {reader : RecordReader α} {fields : List Field} {name : String}

theorem checkEntries_eq_ok (h : ∀ entry ∈ entries, ∀ field ∈ fields, field.name = entry.1 →
    field.check entry.2 = .ok ()) : checkEntries fields entries = .ok () := by
  induction entries with
  | nil => rfl
  | cons entry rest ih =>
    have hrest := ih fun e he => h e (List.mem_cons_of_mem _ he)
    unfold checkEntries
    split
    · rename_i field hfind
      have hname : field.name = entry.1 := by simpa using List.find?_some hfind
      rw [h entry List.mem_cons_self field (List.mem_of_find?_eq_some hfind) hname]
      exact hrest
    · exact hrest

theorem checkPresence_eq_ok (h : ∀ field ∈ fields, field.omission = .never →
    (lookup field.name entries).isSome = true) : checkPresence entries fields = .ok () := by
  induction fields with
  | nil => rfl
  | cons field rest ih =>
    unfold checkPresence
    rw [if_neg, ih fun f hf => h f (List.mem_cons_of_mem _ hf)]
    rintro ⟨hnever, hnone⟩
    have hsome := h field List.mem_cons_self hnever
    rw [Option.isNone_iff_eq_none] at hnone
    rw [hnone] at hsome
    cases hsome

/-- Every field finds a value that it accepts, or may be left out, and `a` is built from that. -/
structure Accepts (reader : RecordReader α) (get : String → Option Json) (a : α) : Prop where
  checked : ∀ field ∈ reader.fields, ∀ value, get field.name = some value →
    field.check value = .ok ()
  present : ∀ field ∈ reader.fields, field.omission = .never → (get field.name).isSome = true
  built : reader.build get = .ok a

section
variable {get : String → Option Json} {read : Reader α} {a : α}

theorem Accepts.required {value : Json} (hget : get name = some value) (h : read value = .ok a) :
    (RecordReader.required name read).Accepts get a where
  checked field hf value' hvalue' := by
    obtain rfl := List.mem_singleton.1 hf
    cases hget.symm.trans hvalue'
    simp only [h, Except.map]
  present field hf _ := by
    obtain rfl := List.mem_singleton.1 hf
    rw [hget]
    rfl
  built := by simp only [RecordReader.required, hget, h]

theorem Accepts.withDefault_some {value : Json} {default : α} (hget : get name = some value)
    (h : read value = .ok a) : (RecordReader.withDefault name read default).Accepts get a where
  checked field hf value' hvalue' := by
    obtain rfl := List.mem_singleton.1 hf
    cases hget.symm.trans hvalue'
    simp only [h, Except.map]
  present field hf hnever := by
    obtain rfl := List.mem_singleton.1 hf
    cases hnever
  built := by simp only [RecordReader.withDefault, hget, h]

theorem Accepts.withDefault_none (hget : get name = none) :
    (RecordReader.withDefault name read a).Accepts get a where
  checked field hf value' hvalue' := by
    obtain rfl := List.mem_singleton.1 hf
    cases hget.symm.trans hvalue'
  present field hf hnever := by
    obtain rfl := List.mem_singleton.1 hf
    cases hnever
  built := by simp only [RecordReader.withDefault, hget]

theorem Accepts.map {f : α → β} (h : reader.Accepts get a) : (f <$> reader).Accepts get (f a) where
  checked := h.checked
  present := h.present
  built := by
    show (reader.build get).map f = _
    rw [h.built]
    rfl

theorem Accepts.seq {maker : RecordReader (α → β)} {g : α → β} (hg : maker.Accepts get g)
    (h : reader.Accepts get a) : (maker <*> reader).Accepts get (g a) where
  checked field hf := (List.mem_append.1 hf).elim (hg.checked field) (h.checked field)
  present field hf := (List.mem_append.1 hf).elim (hg.present field) (h.present field)
  built := by
    show (do
      let g ← maker.build get
      let a ← reader.build get
      pure (g a)) = _
    rw [hg.built, h.built]
    rfl

end

/-- A record is read if its reader accepts what was entered, key by key. -/
theorem read_ofEntries {a : α} (hkeys : (entries.map (·.1)).Nodup)
    (h : reader.Accepts (fun key => lookup key entries.reverse) a) :
    reader.read name (ofEntries entries) = .ok a := by
  obtain ⟨sorted, hsorted⟩ : ∃ sorted,
      sorted = entries.foldl (fun sorted entry => putEntry entry.1 entry.2 sorted) [] := ⟨_, rfl⟩
  have hget : (fun key => lookup key sorted) = fun key => lookup key entries.reverse := by
    subst hsorted
    exact funext fun key => get?_ofEntries
  have hrecord : ofEntries entries = .record sorted := congrArg Json.record hsorted.symm
  rw [hrecord]
  show (do
    checkEntries reader.fields sorted
    checkPresence sorted reader.fields
    reader.build _) = _
  rw [checkEntries_eq_ok, checkPresence_eq_ok, hget]
  · exact h.built
  · intro field hf hnever
    rw [congrFun hget field.name]
    exact h.present field hf hnever
  · intro entry he field hf hname
    obtain he | he := mem_of_mem_foldl (hsorted ▸ he)
    · refine h.checked field hf entry.2 ?_
      rw [hname]
      exact lookup_eq_some (by simpa [List.Nodup, List.pairwise_reverse, ne_comm] using hkeys)
        (List.mem_reverse.2 he)
    · cases he

/-- What was read was built. -/
theorem exists_build {value : Json} {a : α} (h : reader.read name value = .ok a) :
    ∃ get, reader.build get = .ok a := by
  unfold read at h
  split at h
  · rename_i entries
    cases hc : checkEntries reader.fields entries with
    | error fault =>
      rw [hc] at h
      cases h
    | ok =>
      rw [hc] at h
      cases hp : checkPresence entries reader.fields with
      | error fault =>
        rw [hp] at h
        cases h
      | ok =>
        rw [hp] at h
        exact ⟨_, h⟩
  · rename_i items
    dsimp only at h
    generalize checkItems _ 0 reader.fields items = checked at h
    cases checked with
    | error fault => cases h
    | ok =>
      change (if _ then _ else _) = _ at h
      split at h
      · cases h
      · exact ⟨_, h⟩
  · cases h

end RecordReader

end Encounter.Json
