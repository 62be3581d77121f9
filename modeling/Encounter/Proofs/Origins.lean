import Encounter.Proofs.Acceptance
import Encounter.Proofs.Following
import Encounter.Proofs.Pacing
import Encounter.Proofs.Storing

/-!
# Where marks come from

A trigger that is new, preset or read from a record has no fire on record (`Trigger.Unmarked`);
only one that has fired before, here or in another engine, can bring a mark along when it is
registered. If a run registers none of those, nor rewrites a trigger into one
(`Licence.bringsUnmarked`), every trigger is unmarked until it first comes to fire
(`Session.Unworn`), so no link ever brings a mark along (`Session.brought_eq_none`).
-/

set_option autoImplicit false

namespace Encounter

open Journal

/-! ## Triggers -/

/-- None of the links has a fire on record. -/
def Trigger.Unmarked {κ : Type} (t : Trigger κ) : Prop :=
  ∀ l ∈ t.links, l.lastFired = none

section
variable {κ : Type} {t : Trigger κ}

theorem Trigger.Unmarked.mark (h : t.Unmarked) (place : Nat) : t.mark place = none := by
  unfold Trigger.mark
  cases hl : t.links[place]? with
  | none => rfl
  | some l => exact h l (List.mem_of_getElem? hl)

theorem Trigger.Unmarked.withSource (h : t.Unmarked) (source : Option String) :
    (t.withSource source).Unmarked := by
  obtain ⟨hhead, hrest⟩ := List.forall_mem_cons.1 h
  exact List.forall_mem_cons.2 ⟨hhead, hrest⟩

theorem Trigger.Unmarked.new (event : String) (condition : Condition κ) (reaction : Reaction κ) :
    (Trigger.new event condition reaction).Unmarked :=
  List.forall_mem_singleton.2 rfl

theorem EntityKind.unmarked_presets (kind : EntityKind) :
    ∀ t ∈ (kind.presets : List (Trigger κ)), t.Unmarked := by
  cases kind with
  | npc | enemy | trap =>
    exact List.forall_mem_singleton.2 (Trigger.Unmarked.new (κ := κ) _ _ _)
  | player | object => exact List.forall_mem_nil _

theorem Vocabulary.unmarked_readTriggers {v : Vocabulary κ} {limit : UInt64} {records : List Json}
    {triggers : List (Trigger κ)} (h : v.readTriggers limit records = .ok triggers) :
    ∀ t ∈ triggers, t.Unmarked := by
  induction records generalizing triggers with
  | nil =>
    cases h
    exact List.forall_mem_nil _
  | cons record records ih =>
    obtain ⟨t, ht, h⟩ := bind_eq_ok.1 h
    obtain ⟨ts, hts, h⟩ := bind_eq_ok.1 h
    cases h
    refine List.forall_mem_cons.2 ⟨fun l hl => ?_, ih hts⟩
    obtain ⟨j, hj⟩ := List.mem_iff_getElem?.1 hl
    obtain ⟨_, -, hlink⟩ := (readChain_iff.1 ht).2.described j l hj
    exact hlink.lastFired

end

/-! ## Changes -/

/-- The trigger on the shelf, if there is one, has no fire on record. -/
def Shelf.Unmarked {κ : Type} (s : Shelf κ) (id : TriggerId) : Prop :=
  ∀ t, s.get? id = some t → t.Unmarked

section
variable {κ : Type} {id i : TriggerId} {t : Trigger κ}

theorem Shelf.Unmarked.of_slot {s s' : Shelf κ} (hs : s.Unmarked id)
    (hslot : s'.slots[id]? = s.slots[id]?) : s'.Unmarked id := fun t ht =>
  hs t (by rwa [get?_eq, ← hslot])

theorem Shelf.Unmarked.insert {s : Shelf κ} (hs : s.Unmarked id) (ht : t.Unmarked) :
    (s.insert t).2.Unmarked id := fun t' ht' => by
  rw [get?_eq_some, slots_insert] at ht'
  split at ht'
  · cases ht'
    exact ht
  · exact hs t' (get?_eq_some.2 ht')

theorem Shelf.Unmarked.modify {s : Shelf κ} {f : Trigger κ → Trigger κ} (hs : s.Unmarked id)
    (hf : ∀ t, t.Unmarked → (f t).Unmarked) : (s.modify i f).Unmarked id := fun t' ht' => by
  rw [get?_eq_some, slots_modify] at ht'
  split at ht'
  · rw [Option.map_eq_some_iff] at ht'
    obtain ⟨slot, hslot, ht'⟩ := ht'
    obtain ⟨t, rfl, rfl⟩ := Option.map_eq_some_iff.1 ht'
    exact hf t (hs t (get?_eq_some.2 hslot))
  · exact hs t' (get?_eq_some.2 ht')

namespace Engine

variable {e e' : Engine κ} {x : EntityId}

theorem register_unmarked (hs : e.shelf.Unmarked id) (ht : t.Unmarked)
    (h : e.register x t = .ok (i, e')) : e'.shelf.Unmarked id := by
  obtain ⟨_, ⟨_, -, rfl⟩, -, h⟩ := register_eq_ok h
  rw [attach_shelf h, registerGlobal_shelf]
  exact hs.insert (ht.withSource _)

theorem registerAll_unmarked {triggers : List (Trigger κ)} {ids : List TriggerId}
    (hs : e.shelf.Unmarked id) (ht : ∀ t ∈ triggers, t.Unmarked)
    (h : e.registerAll x triggers = .ok (ids, e')) : e'.shelf.Unmarked id := by
  induction triggers generalizing e ids with
  | nil =>
    cases h
    exact hs
  | cons t rest ih =>
    obtain ⟨_, _, _, h₁, h₂, -⟩ := registerAll_cons_eq_ok h
    rw [List.forall_mem_cons] at ht
    exact ih (register_unmarked hs ht.1 h₁) ht.2 h₂

end Engine

end

namespace Change

variable {κ α : Type} {e : Engine κ} {id : TriggerId}

/-- Does the change register no trigger with a fire on record, and rewrite none into such a one? -/
def BringsUnmarked : Change κ α → Prop
  | .register _ t => t.Unmarked
  | .registerGlobal t => t.Unmarked
  | .editTrigger _ f => ∀ t, t.Unmarked → (f t).Unmarked
  | _ => True

open Engine in
theorem unmarked_apply (c : Change κ α) (hc : c.BringsUnmarked) (hs : e.shelf.Unmarked id) :
    (c.apply e).2.shelf.Unmarked id := by
  have hrefuse : ∀ {β : Type} {r : Except Failure (β × Engine κ)},
      (∀ b e', r = .ok (b, e') → e'.shelf.Unmarked id) → (e.orRefuse r).2.shelf.Unmarked id :=
    fun hr => orRefuse_cases (P := fun e' => e'.shelf.Unmarked id) hs hr
  have hslot := c.slot_cases e id
  cases c with
  | register x t => exact hrefuse fun _ _ h => register_unmarked hs hc h
  | registerGlobal t =>
    show (e.registerGlobal t).2.shelf.Unmarked id
    rw [registerGlobal_shelf]
    exact hs.insert hc
  | editTrigger i f => exact hs.modify hc
  | addPresets x =>
    refine hrefuse fun ids e' h => ?_
    obtain ⟨record, -, hall⟩ := addPresets_eq_ok h
    exact registerAll_unmarked hs record.kind.unmarked_presets hall
  | load record =>
    refine hrefuse fun x e' h => ?_
    obtain ⟨⟨⟨x, ids⟩, e₁⟩, hl, he⟩ := map_eq_ok.1 h
    cases he
    obtain ⟨_, _, _, triggers, ⟨_, hread⟩, -, hall⟩ := load_eq_ok hl
    refine registerAll_unmarked ?_ (Vocabulary.unmarked_readTriggers hread) hall
    exact hs
  | _ =>
    -- nothing is stored or rewritten
    intro t ht
    rw [Shelf.get?_eq_some] at ht
    rcases hslot with ⟨hin, -⟩ | ⟨-, hid | hid | ⟨hr, -⟩⟩
    · cases hin
    · exact hs t (Shelf.get?_eq_some.2 (hid ▸ ht))
    · cases ht.symm.trans hid
    · simp [remarks] at hr

end Change

/-- The operations that bring no fire on record along. -/
def Licence.bringsUnmarked {κ σ : Type} : Licence κ σ
  | _, .change c => c.BringsUnmarked
  | _, _ => True

/-! ## Sessions -/

/-- The trigger has no fire on record before it first comes to fire. -/
structure Session.Unworn {κ σ : Type} (id : TriggerId) (s : Session κ σ) : Prop where
  waiting : firings id s.journal = [] → s.engine.shelf.Unmarked id
  first : ∀ t ∈ (firings id s.journal).getLast?, t.Unmarked

namespace Session

variable {κ σ : Type} {s s' : Session κ σ} {id : TriggerId}

/-- Nothing changes for a trigger that stays unmarked and is not taken off the shelf. -/
theorem Unworn.keep (h : s.Unworn id) (ns : List (Notice κ)) (hj : s'.journal = ns ++ s.journal)
    (hn : ∀ n ∈ ns, ∀ t, n ≠ .firing id t)
    (hs : firings id s.journal = [] → s'.engine.shelf.Unmarked id) : s'.Unworn id := by
  have hsame : firings id s'.journal = firings id s.journal := by rw [hj, firings_append_of_ne hn]
  refine ⟨?_, ?_⟩ <;> rw [hsame]
  · exact hs
  · exact h.first

/-- Taken off the shelf for the first time, it is as it waited there. -/
theorem Unworn.checkOut (h : s.Unworn id) {t : Trigger κ} (ht : s.engine.shelf.get? id = some t)
    (hj : s'.journal = .firing id t :: s.journal) : s'.Unworn id := by
  have hmore : firings id s'.journal = t :: firings id s.journal := by simp [hj, firings]
  refine ⟨fun hnone => ?_, ?_⟩
  · rw [hmore] at hnone
    cases hnone
  · rw [hmore]
    cases hf : firings id s.journal with
    | nil =>
      rintro _ ⟨⟩
      exact h.waiting hf t ht
    | cons t' ts =>
      rw [List.getLast?_cons_of_ne_nil (List.cons_ne_nil _ _), ← hf]
      exact h.first

theorem Unworn.move (hm : Move .bringsUnmarked s s') (h : s.Unworn id) : s'.Unworn id := by
  obtain ⟨ns, -, hkind⟩ := hm.exists_kind
  cases hkind with
  | quiet ns he hj hn =>
    refine h.keep ns hj (fun n hm t hf => ?_) fun hnone => ?_
    · have hn := hn n hm
      rw [hf] at hn
      cases hn
    · rw [he.shelf]
      exact h.waiting hnone
  | change c hc hend hfit =>
    have hc : c.BringsUnmarked := by cases hc <;> first | assumption | trivial
    refine h.keep _ rfl (fun n hm t hf => ?_) fun hnone => c.unmarked_apply hc (h.waiting hnone)
    have hn := isOfFire_of_mem_notices hm
    rw [hf] at hn
    cases hn
  | @checkOut i t hget =>
    by_cases hi : i = id
    · subst hi
      exact h.checkOut hget rfl
    · refine h.keep [_] rfl (by simp [hi]) fun hnone => (h.waiting hnone).of_slot ?_
      rw [Shelf.slots_checkOut hget, if_neg hi]
  | @checkIn i t t' outer hout ht =>
    by_cases hi : i = id
    · -- it is firing, so this is not the first time
      subst hi
      have hmem : (i, t) ∈ s.underway := hout ▸ List.mem_cons_self
      obtain ⟨f, hf, hi⟩ := List.mem_map.1 hmem
      cases hi
      exact h.keep [_] rfl (by simp) fun hnone =>
        absurd hnone (List.ne_nil_of_mem (mem_firings hf))
    · refine h.keep [_] rfl (by simp) fun hnone => (h.waiting hnone).of_slot ?_
      rw [Shelf.slots_checkIn, if_neg fun hc => hi hc.1]
  | handle => exact h.keep [_] rfl (by simp) h.waiting

theorem unworn_opening (world : WorldId) (settings : Settings) (state : σ) (budget : Nat) :
    (opening (κ := κ) world settings state budget).Unworn id where
  waiting _ t ht := by
    rw [Shelf.get?_eq_some] at ht
    simp [opening, Engine.new, Shelf.slots_new] at ht
  first _ ht := by cases ht

/-- In a run that brings no fire on record along, no link brings a mark along. -/
theorem brought_eq_none {α : Type} {host : Host κ σ} {program : Program κ σ α} {world : WorldId}
    {settings : Settings} {state : σ} {budget : Nat} (hh : host.Within .bringsUnmarked)
    (hp : program.Within .bringsUnmarked) (place : Nat) :
    brought id place ((opening world settings state budget).reached host program).journal =
      none := by
  have h := (reached_moves hh hp).keep (P := Unworn id) (fun _ _ hm => .move hm)
    (unworn_opening world settings state budget)
  rw [brought, Option.bind_eq_none_iff]
  exact fun t ht => (h.first t ht).mark place

end Session

end Encounter
