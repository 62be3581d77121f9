import Encounter.Proofs.Numbering

/-!
# Empty slots are fires under way

`Session.Disciplined`: a slot is empty exactly if a fire of its trigger is under way whose slot was
not removed since, and no two fires under way are of the same trigger. Every move keeps this
(`Session.Disciplined.move`), whatever reactions do in between.

Where a trigger is then, on the shelf or firing, is told by `Session.trigger?`. A move that neither
removes nor rewrites it leaves it there, and unchanged but for its recorded fires
(`Session.trigger?_move`).
-/

set_option autoImplicit false

namespace Encounter

open Journal

section
variable {κ σ : Type} {allowed : Licence κ σ} {s s' : Session κ σ} {id : TriggerId} {t : Trigger κ}

/-- The empty slots are those of the fires under way that were not removed, and no two fires under
way are of the same trigger. -/
structure Session.Disciplined (s : Session κ σ) : Prop where
  out : ∀ id, s.engine.shelf.isOut id = true ↔ ∃ f ∈ s.fires, f.id = id ∧ f.removed = false
  once : (s.fires.map Fire.id).Nodup
  removed : ∀ f ∈ s.fires, f.removed = true → s.engine.shelf.contains f.id = false

/-- The trigger of a number, on the shelf or firing. -/
def Session.trigger? (s : Session κ σ) (id : TriggerId) : Option (Trigger κ) :=
  (s.engine.shelf.get? id).or (firing? s.journal id)

/-- The innermost fire under way. -/
theorem Session.fires_of_underway {outer : List (TriggerId × Trigger κ)}
    (h : s.underway = (id, t) :: outer) :
    ∃ removed rest, s.fires = ⟨id, t, removed⟩ :: rest := by
  obtain ⟨f, rest, hf, hft, -⟩ := List.map_eq_cons_iff.1 h
  cases hft
  exact ⟨f.removed, rest, hf⟩

/-! ## Numbers of fires -/

namespace Session.Numbered

theorem mem_of_fire (hs : s.Numbered) {f : Fire κ} (hf : f ∈ s.fires) :
    f.id ∈ storedTriggers s.journal :=
  hs.fires _ (List.mem_map_of_mem hf)

/-- What a change stores had no slot and does not fire. -/
theorem not_stored {α : Type} {c : Change κ α} (hs : s.Numbered)
    (hend : c.isEndless s.engine = false) (hc : allowed.Permits c)
    (hfit : c.overflows s.engine = false) (hid : id ∈ storedTriggers s.journal) :
    id ∉ c.stored s.engine := by
  intro hin
  have hm : Move allowed s _ := .change c hc hend hfit
  exact (hs.move hm).fresh rfl (stored_mem_notices.2 hin) hid

end Session.Numbered

/-! ## Moves keep the discipline -/

namespace Session.Disciplined

theorem opening (world : WorldId) (settings : Settings) (host : σ) (budget : Nat) :
    (Session.opening (κ := κ) world settings host budget).Disciplined where
  out id := by
    rw [Shelf.isOut_iff]
    simp [Session.opening, Engine.new, Shelf.slots_new, Session.fires, Journal.fires]
  once := List.nodup_nil
  removed f hf := by cases hf

theorem fire_of_out (hd : s.Disciplined) (h : s.engine.shelf.isOut id = true) :
    (firing? s.journal id).isSome = true :=
  isSome_firing?.2 ((hd.out id).1 h)

/-- A trigger that waits on the shelf does not fire. -/
theorem not_fire_of_get? (hd : s.Disciplined) (h : s.engine.shelf.get? id = some t) :
    id ∉ s.fires.map Fire.id := by
  intro hm
  obtain ⟨f, hf, rfl⟩ := List.mem_map.1 hm
  cases hr : f.removed with
  | true =>
    have hc := hd.removed f hf hr
    rw [Shelf.contains_of_get? h] at hc
    cases hc
  | false =>
    have ho := (hd.out f.id).2 ⟨f, hf, rfl, hr⟩
    rw [Shelf.not_isOut_of_get? h] at ho
    cases ho

theorem change {α : Type} {c : Change κ α} (hc : allowed.Permits c)
    (hend : c.isEndless s.engine = false) (hfit : c.overflows s.engine = false) (hn : s.Numbered)
    (hd : s.Disciplined) :
    Session.Disciplined { s with
      engine := (c.apply s.engine).2
      journal := c.notices s.engine (c.apply s.engine).2 ++ s.journal } := by
  have hfresh : ∀ f ∈ s.fires, f.id ∉ c.stored s.engine := fun f hf =>
    hn.not_stored hend hc hfit (hn.mem_of_fire hf)
  have hmem : ∀ f, f ∈ Journal.fires (c.notices s.engine (c.apply s.engine).2 ++ s.journal) ↔ _ :=
    fun f => mem_fires_append fun _ => isOfFire_of_mem_notices
  refine ⟨fun id => ?_, ?_, fun f hf hr => ?_⟩
  · rw [Shelf.isOut_iff]
    constructor
    · intro ho
      rcases c.slot_cases s.engine id with ⟨-, t, ht⟩ | ⟨-, hid | hid | ⟨-, t, t', -, ht⟩⟩
      · cases ho.symm.trans ht
      · rw [hid, ← Shelf.isOut_iff] at ho
        obtain ⟨f, hf, rfl, hr⟩ := (hd.out id).1 ho
        refine ⟨_, (hmem _).2 ⟨f, hf, rfl⟩, rfl, ?_⟩
        rw [hr, Bool.false_or, ← Bool.not_eq_true, any_drops, dropped_mem_notices]
        rintro ⟨hb, ha⟩
        rw [Shelf.contains_eq] at ha hb
        rw [hid, hb] at ha
        cases ha
      · cases ho.symm.trans hid
      · cases ho.symm.trans ht
    · rintro ⟨f, hf, rfl, hr⟩
      obtain ⟨g, hg, rfl⟩ := (hmem f).1 hf
      obtain ⟨hrem, hdrop⟩ := Bool.or_eq_false_iff.1 hr
      rw [← Bool.not_eq_true, any_drops, dropped_mem_notices] at hdrop
      have ho := (hd.out g.id).2 ⟨g, hg, rfl, hrem⟩
      have hkept : ((c.apply s.engine).2.shelf.slots[g.id]?).isSome = true := by
        rw [← Shelf.contains_eq, ← Bool.not_eq_false]
        exact fun hgone => hdrop ⟨Shelf.contains_of_isOut ho, hgone⟩
      rw [Shelf.isOut_iff] at ho
      rcases c.slot_cases s.engine g.id with ⟨hin, -⟩ | ⟨-, hid | hid | ⟨-, t, t', ht, -⟩⟩
      · exact absurd hin (hfresh g hg)
      · exact hid.trans ho
      · rw [hid] at hkept
        cases hkept
      · cases ho.symm.trans ht
  · unfold Session.fires
    rw [ids_fires_append fun _ => isOfFire_of_mem_notices]
    exact hd.once
  · obtain ⟨g, hg, rfl⟩ := (hmem f).1 hf
    rcases Bool.or_eq_true_iff.1 hr with hrem | hdrop
    · have hc' := hd.removed g hg hrem
      rw [Shelf.contains_eq] at hc' ⊢
      rcases c.slot_cases s.engine g.id with ⟨hin, -⟩ | ⟨-, hid | hid | ⟨-, t, t', ht, -⟩⟩
      · exact absurd hin (hfresh g hg)
      · exact (congrArg _ hid).trans hc'
      · exact congrArg Option.isSome hid
      · rw [ht] at hc'
        cases hc'
    · exact (dropped_mem_notices.1 (any_drops.1 hdrop)).2

theorem checkOut (hd : s.Disciplined) (h : s.engine.shelf.get? id = some t) :
    Session.Disciplined { s with
      engine := { s.engine with shelf := (s.engine.shelf.checkOut id).2 }
      journal := .firing id t :: s.journal } := by
  have hid := hd.not_fire_of_get? h
  refine ⟨fun i => ?_, ?_, fun f hf hr => ?_⟩
  · rw [Shelf.isOut_iff, Shelf.slots_checkOut h]
    split
    · rename_i hi
      exact ⟨fun _ => ⟨⟨id, t, false⟩, List.mem_cons_self, hi, rfl⟩, fun _ => rfl⟩
    · rename_i hi
      rw [← Shelf.isOut_iff, hd.out]
      constructor
      · rintro ⟨f, hf, hfi⟩
        exact ⟨f, List.mem_cons_of_mem _ hf, hfi⟩
      · rintro ⟨f, hf, hfi, hr⟩
        rcases List.mem_cons.1 hf with rfl | hf
        · exact absurd hfi hi
        · exact ⟨f, hf, hfi, hr⟩
  · exact List.nodup_cons.2 ⟨hid, hd.once⟩
  · rcases List.mem_cons.1 hf with rfl | hf
    · cases hr
    · show (s.engine.shelf.checkOut id).2.contains f.id = false
      rw [Shelf.contains_checkOut h]
      exact hd.removed f hf hr

theorem checkIn {t' : Trigger κ} {outer : List (TriggerId × Trigger κ)} (hd : s.Disciplined)
    (h : s.underway = (id, t) :: outer) :
    Session.Disciplined { s with
      engine := { s.engine with shelf := s.engine.shelf.checkIn id t' }
      journal := .fired id t' :: s.journal } := by
  obtain ⟨removed, rest, hfires⟩ := Session.fires_of_underway h
  have hrest : Session.fires { s with
      engine := { s.engine with shelf := s.engine.shelf.checkIn id t' }
      journal := .fired id t' :: s.journal } = rest := by
    show s.fires.tail = rest
    rw [hfires, List.tail_cons]
  have honce := hd.once
  rw [hfires, List.map_cons, List.nodup_cons] at honce
  refine ⟨fun i => ?_, ?_, fun g hg hr => ?_⟩
  · rw [hrest, Shelf.isOut_iff, Shelf.slots_checkIn]
    by_cases hi : id = i
    · subst hi
      refine ⟨fun ho => ?_, ?_⟩
      · split at ho
        · cases ho
        · rename_i hc
          rw [← Shelf.isOut_iff] at ho
          exact absurd ⟨rfl, Shelf.contains_of_isOut ho⟩ hc
      · rintro ⟨g, hg, hgi, -⟩
        exact absurd (List.mem_map.2 ⟨g, hg, hgi⟩) honce.1
    · rw [if_neg fun hc => hi hc.1, ← Shelf.isOut_iff, hd.out, hfires]
      constructor
      · rintro ⟨g, hg, hgi, hr⟩
        rcases List.mem_cons.1 hg with rfl | hg
        · exact absurd hgi hi
        · exact ⟨g, hg, hgi, hr⟩
      · rintro ⟨g, hg, hgi⟩
        exact ⟨g, List.mem_cons_of_mem _ hg, hgi⟩
  · rw [hrest]
    exact honce.2
  · rw [hrest] at hg
    show (s.engine.shelf.checkIn id t').contains g.id = false
    rw [Shelf.contains_checkIn]
    exact hd.removed g (hfires ▸ List.mem_cons_of_mem _ hg) hr

/-- Every move keeps the discipline. -/
theorem move (hm : Move allowed s s') (hn : s.Numbered) (hd : s.Disciplined) : s'.Disciplined := by
  obtain ⟨ns, hj, hkind⟩ := hm.exists_kind
  cases hkind with
  | quiet ns he hj ha =>
    have hfires : s'.fires = s.fires := by
      unfold Session.fires
      rw [hj, fires_of_isAside ha]
    refine ⟨?_, ?_, ?_⟩
    · rw [hfires, he.shelf]
      exact hd.out
    · rw [hfires]
      exact hd.once
    · rw [hfires, he.shelf]
      exact hd.removed
  | change c hc hend hfit => exact hd.change hc hend hfit hn
  | checkOut h => exact hd.checkOut h
  | checkIn h ht => exact hd.checkIn h
  | handle h => exact ⟨hd.out, hd.once, hd.removed⟩

end Session.Disciplined

/-! ## Where a trigger is -/

namespace Session

theorem contains_of_trigger? (hd : s.Disciplined) (h : s.trigger? id = some t) :
    s.engine.shelf.contains id = true := by
  rcases Option.or_eq_some_iff.1 h with h | ⟨-, h⟩
  · exact Shelf.contains_of_get? h
  · exact Shelf.contains_of_isOut ((hd.out id).2 (isSome_firing?.1 (by rw [h]; rfl)))

theorem trigger?_of_slot {s s' : Session κ σ}
    (hs : s'.engine.shelf.slots[id]? = s.engine.shelf.slots[id]?)
    (hf : firing? s'.journal id = firing? s.journal id) : s'.trigger? id = s.trigger? id := by
  rw [trigger?, trigger?, Shelf.get?_eq, Shelf.get?_eq, hs, hf]

theorem firing?_cons_of_ne {i : TriggerId} {t : Trigger κ} {j : List (Notice κ)} (h : i ≠ id) :
    firing? (.firing i t :: j) id = firing? j id := by
  simp [firing?, Journal.fires, h]

theorem firing?_tail_of_ne {f : Fire κ} {rest : List (Fire κ)} {i : TriggerId} {t' : Trigger κ}
    (hs : s.fires = f :: rest) (h : f.id ≠ id) :
    firing? (.fired i t' :: s.journal) id = firing? s.journal id := by
  show ((s.fires.tail).find? _).map _ = (s.fires.find? _).map _
  rw [hs, List.tail_cons, List.find?_cons_of_neg (by simp [h])]

/-- A move that does not remove a trigger leaves it where it can be found; if it does not rewrite it
either, the trigger stays as it is but for its recorded fires. -/
theorem trigger?_move (hm : Move allowed s s') (hn : s.Numbered) (hd : s.Disciplined)
    {ns : List (Notice κ)} (hj : s'.journal = ns ++ s.journal) (ht : s.trigger? id = some t)
    (hdrop : .dropped id ∉ ns) :
    ∃ t', s'.trigger? id = some t' ∧ (.rewritten id ∉ ns → t'.unfired = t.unfired) := by
  have hsame : s'.trigger? id = s.trigger? id →
      ∃ t', s'.trigger? id = some t' ∧ (.rewritten id ∉ ns → t'.unfired = t.unfired) := fun h =>
    ⟨t, h.trans ht, fun _ => rfl⟩
  have hin := contains_of_trigger? hd ht
  cases hm.kind hj with
  | quiet _ he hj' ha =>
    refine hsame (trigger?_of_slot (by rw [he.shelf]) ?_)
    unfold firing?
    rw [hj', fires_of_isAside ha]
  | change c hc hend hfit =>
    have hkept : ((c.apply s.engine).2.shelf.slots[id]?).isSome = true := by
      rw [← Shelf.contains_eq, ← Bool.not_eq_false]
      exact fun hgone => hdrop (dropped_mem_notices.2 ⟨hin, hgone⟩)
    rcases c.slot_cases s.engine id with ⟨hst, -⟩ | ⟨-, hid | hid | ⟨hr, t₁, t₂, -, hid⟩⟩
    · exact absurd hst (hn.not_stored hend hc hfit (hn.slots id hin))
    · exact hsame (trigger?_of_slot hid
        (firing?_append (fun _ => isOfFire_of_mem_notices) hdrop))
    · rw [hid] at hkept
      cases hkept
    · refine ⟨t₂, ?_, fun hnr => absurd ?_ hnr⟩
      · rw [trigger?, Shelf.get?_eq_some.2 hid, Option.some_or]
      · simp [Change.notices, hr]
  | @checkOut i t₁ h =>
    by_cases hi : i = id
    · subst hi
      have ht₁ : t₁ = t := by
        rw [trigger?, h, Option.some_or] at ht
        exact Option.some.inj ht
      refine ⟨t, ?_, fun _ => rfl⟩
      rw [trigger?, Shelf.get?_checkOut h]
      simp [firing?, Journal.fires, ht₁]
    · refine hsame (trigger?_of_slot ?_ (firing?_cons_of_ne hi))
      rw [Shelf.slots_checkOut h, if_neg hi]
  | @checkIn i t₁ t₂ outer h hun =>
    obtain ⟨removed, rest, hfires⟩ := fires_of_underway h
    by_cases hi : i = id
    · subst hi
      have hmem : ⟨i, t₁, removed⟩ ∈ s.fires := hfires ▸ List.mem_cons_self
      have hrem : removed = false := by
        cases removed with
        | false => rfl
        | true => cases hin.symm.trans (hd.removed _ hmem rfl)
      subst hrem
      have ho := Shelf.isOut_iff.1 ((hd.out i).2 ⟨_, hmem, rfl, rfl⟩)
      have ht₁ : t₁ = t := by
        have hf : firing? s.journal i = some t₁ := by
          show (s.fires.find? _).map _ = _
          rw [hfires]
          simp
        rw [trigger?, Shelf.get?_eq, ho, hf] at ht
        exact Option.some.inj ht
      refine ⟨t₂, ?_, fun _ => by rw [hun, ht₁]⟩
      rw [trigger?, Shelf.get?_eq, Shelf.slots_checkIn, if_pos ⟨rfl, hin⟩]
      rfl
    · refine hsame (trigger?_of_slot ?_ (firing?_tail_of_ne hfires hi))
      rw [Shelf.slots_checkIn, if_neg fun hc => hi hc.1]
  | handle => exact hsame rfl

end Session

/-! ## Fires in the journal -/

/-- A fire begins with a trigger that was on the shelf. -/
theorem Move.firing (hm : Move allowed s s') {ns : List (Notice κ)}
    (hj : s'.journal = ns ++ s.journal) (h : .firing id t ∈ ns) :
    ns = [.firing id t] ∧ s.engine.shelf.get? id = some t ∧ s'.trigger? id = some t := by
  cases hm.kind hj with
  | quiet ns he hj' ha => cases ha _ h
  | change c =>
    cases isOfFire_of_mem_notices h
  | @checkOut i t₁ hget =>
    cases List.mem_singleton.1 h
    refine ⟨rfl, hget, ?_⟩
    rw [Session.trigger?, Shelf.get?_checkOut hget]
    simp [firing?, fires]
  | checkIn => cases List.mem_singleton.1 h
  | handle => cases List.mem_singleton.1 h

/-- The fire that ends is the innermost one, and its trigger is as it was but for its recorded
fires. -/
theorem Move.fired (hm : Move allowed s s') {ns : List (Notice κ)} {t' : Trigger κ}
    (hj : s'.journal = ns ++ s.journal) (h : .fired id t' ∈ ns) :
    ns = [.fired id t'] ∧ ∃ t outer, s.underway = (id, t) :: outer ∧ t'.unfired = t.unfired := by
  cases hm.kind hj with
  | quiet ns he hj' ha => cases ha _ h
  | change c =>
    cases isOfFire_of_mem_notices h
  | checkOut => cases List.mem_singleton.1 h
  | checkIn hun ht =>
    cases List.mem_singleton.1 h
    exact ⟨rfl, _, _, hun, ht⟩
  | handle => cases List.mem_singleton.1 h

/-- What fires come to: a trigger that was fired and not removed since can be found, and is as it
was unless it was rewritten; and a fire that ended was the innermost one. -/
structure Session.Returning (s : Session κ σ) : Prop where
  kept : ∀ later earlier id t, s.journal = later ++ .firing id t :: earlier → .dropped id ∉ later →
    ∃ t', s.trigger? id = some t' ∧ (.rewritten id ∉ later → t'.unfired = t.unfired)
  ended : ∀ later earlier id t', s.journal = later ++ .fired id t' :: earlier →
    ∃ t outer, Journal.underway earlier = (id, t) :: outer ∧ t'.unfired = t.unfired

theorem Session.Returning.move (hm : Move allowed s s') (hn : s.Numbered) (hd : s.Disciplined)
    (hs : s.Returning) : s'.Returning := by
  obtain ⟨ns, hj⟩ := hm.journal
  refine ⟨fun later earlier id t h hdrop => ?_, fun later earlier id t' h => ?_⟩
  · rcases split_append (hj.symm.trans h) with ⟨later', rfl, hold⟩ | ⟨rest, hns, rfl⟩
    · rw [List.mem_append, not_or] at hdrop
      obtain ⟨t₁, ht₁, hun⟩ := hs.kept later' earlier id t hold hdrop.2
      obtain ⟨t₂, ht₂, hun'⟩ := trigger?_move hm hn hd hj ht₁ hdrop.1
      refine ⟨t₂, ht₂, fun hr => ?_⟩
      rw [List.mem_append, not_or] at hr
      exact (hun' hr.1).trans (hun hr.2)
    · have hmem : .firing id t ∈ ns := by simp [hns]
      obtain ⟨-, -, ht⟩ := hm.firing hj hmem
      exact ⟨t, ht, fun _ => rfl⟩
  · rcases split_append (hj.symm.trans h) with ⟨later', rfl, hold⟩ | ⟨rest, hns, rfl⟩
    · exact hs.ended later' earlier id t' hold
    · have hmem : .fired id t' ∈ ns := by simp [hns]
      obtain ⟨hone, hfired⟩ := hm.fired hj hmem
      rw [hone] at hns
      rcases List.singleton_eq_append_iff.1 hns with ⟨-, h⟩ | ⟨-, h⟩
      · cases h
        exact hfired
      · cases h

end

section
variable {κ σ α : Type} (host : Host κ σ) (p : Program κ σ α) (world : WorldId)
  (settings : Settings) (state : σ) (budget : Nat)

/-- Every session of a run is disciplined, and its fires return what they took. When the run ends,
no slot is empty, and a trigger that was fired and not removed since is in its slot, as it was
unless it was rewritten. -/
theorem Session.checkOut_discipline :
    ((Session.opening world settings state budget).reached host p).Disciplined ∧
    ((Session.opening world settings state budget).reached host p).Returning ∧
    ∀ a s', (Session.opening world settings state budget).run host p = .ok a s' →
      (∀ id, s'.engine.shelf.isOut id = false) ∧
      ∀ later earlier id t, s'.journal = later ++ .firing id t :: earlier →
        .dropped id ∉ later → ∃ t', s'.engine.shelf.get? id = some t' ∧
          (.rewritten id ∉ later → t'.unfired = t.unfired) := by
  have hh := Host.within_free host
  have hp := Program.within_free p
  have hmoves : Moves .free (Session.opening world settings state budget)
      ((Session.opening world settings state budget).reached host p) := Session.reached_moves hh hp
  obtain ⟨-, hd, hr⟩ := hmoves.keep
    (P := fun s => s.Numbered ∧ s.Disciplined ∧ s.Returning)
    (fun _ _ hm hs => ⟨hs.1.move hm, hs.2.1.move hm hs.1, hs.2.2.move hm hs.1 hs.2.1⟩)
    ⟨.opening .., .opening .., ⟨by simp [Session.opening], by simp [Session.opening]⟩⟩
  refine ⟨hd, hr, fun a s' h => ?_⟩
  rw [Session.reached_of_ok h] at hd hr
  have hnone : s'.fires = [] := List.map_eq_nil_iff.1 (Session.run_underway h hh hp)
  refine ⟨fun id => ?_, fun later earlier id t hj hdrop => ?_⟩
  · rw [← Bool.not_eq_true, hd.out, hnone]
    simp
  · obtain ⟨t', ht', hun⟩ := hr.kept later earlier id t hj hdrop
    refine ⟨t', ?_, hun⟩
    have hfiring : firing? s'.journal id = none := by
      show (s'.fires.find? _).map _ = none
      rw [hnone]
      rfl
    rwa [trigger?, hfiring, Option.or_none] at ht'

end

end Encounter
