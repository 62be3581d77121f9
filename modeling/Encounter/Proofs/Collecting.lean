import Encounter.Proofs.Ledger
import Encounter.Proofs.Serving

/-!
# What is collected is done

A collection that comes to its end has done all its tasks, in order and whatever failed
(`Session.collect_does_all`); of one that was stopped on the way a first part was begun, and nothing
is ever begun that was not collected (`Session.begun_of_collected`).
-/

set_option autoImplicit false

namespace Encounter

open Journal (collections begun)

section
variable {κ σ : Type}

theorem Passage.journal {m m' : List (Duty κ) × Session κ σ} (hp : Passage m m') :
    ∃ ns, m'.2.journal = ns ++ m.2.journal := by
  cases hp with
  | calm hcalm => exact hcalm.journal.imp fun _ => And.left
  | finish => exact ⟨[], rfl⟩
  | _ => exact ⟨[_], rfl⟩

theorem Passages.journal {m m' : List (Duty κ) × Session κ σ} (hp : Passages m m') :
    ∃ ns, m'.2.journal = ns ++ m.2.journal := by
  induction hp with
  | refl => exact ⟨[], rfl⟩
  | tail _ hp ih =>
    obtain ⟨ns, hj⟩ := ih
    obtain ⟨ns', hj'⟩ := hp.journal
    exact ⟨ns' ++ ns, by rw [hj', hj, List.append_assoc]⟩

end

namespace Run

variable {κ σ α : Type} {host : Host κ σ} {invoke : Invoke κ σ} {s s' : Session κ σ}

theorem Passes.passages {m : Run κ σ α} (hm : Passes m) {a : α} (h : m s = .ok a s')
    (duties : List (Duty κ)) : Passages (duties, s) (duties, s') := by
  have hw := hm duties s
  unfold Works at hw
  rw [h] at hw
  exact hw

theorem collect_eq_ok {k : Dispatch} {answer : Except Failure UInt64}
    (h : collect host invoke k s = .ok answer s') :
    ∃ b outcome, s.budget = b + 1 ∧
      all (fun entry => runTask host invoke (collections s.journal) entry.item)
        (k.gather s.engine).1.1 { s with
          engine := (k.gather s.engine).2
          journal := .collected k.calendar (k.gather s.engine).1.2
            ((k.gather s.engine).1.1.map (·.item)) :: s.journal
          budget := b } = .ok outcome s' ∧
      answer = outcome.map fun _ => (k.gather s.engine).1.2 := by
  obtain ⟨gathered, s₁, hchange, h⟩ := bind_eq_ok.1 h
  obtain ⟨outcome, s₂, hdue, h⟩ := bind_eq_ok.1 h
  obtain ⟨rfl, rfl⟩ := pure_eq_ok.1 h
  obtain ⟨b, hb, rfl, rfl⟩ := change_eq_ok.1 hchange
  exact ⟨b, outcome, hb, hdue, rfl⟩

end Run

namespace Session

variable {κ σ α : Type} {host : Host κ σ} {duties : List (Duty κ)} {s s' : Session κ σ}

/-- What is collected is done, all of it and in order, and the first failure is told. -/
theorem collect_does_all {depth : Nat} {k : Dispatch} {answer : Except Failure UInt64}
    {due : List (Deferred κ)} {now : UInt64} (hledger : Ledger duties s.journal)
    (hdue : (k.gather s.engine).1.1.map (·.item) = due) (hnow : (k.gather s.engine).1.2 = now)
    (h : Run.collect host (Run.code host depth) k s = .ok answer s') :
    begun s'.journal (collections s.journal) = due ∧
      (∃ later, s'.journal = later ++ .collected k.calendar now due :: s.journal) ∧
        ∃ b outcomes, s.budget = b + 1 ∧
          due.mapM (Run.runTask host (Run.code host depth) (collections s.journal)) { s with
            engine := (k.gather s.engine).2
            journal := .collected k.calendar now due :: s.journal
            budget := b } = .ok outcomes s' ∧
          answer = (Run.firstOf outcomes).map fun _ => now := by
  subst hdue hnow
  obtain ⟨b, outcome, hb, hall, rfl⟩ := Run.collect_eq_ok h
  have hworks := Run.works_all host
    ((Run.passes_traversal host).doTask ((Run.passes_traversal host).code host.within_free depth))
    (collections s.journal) duties (k.gather s.engine).1.1 { s with
      engine := (k.gather s.engine).2
      journal := .collected k.calendar (k.gather s.engine).1.2
        ((k.gather s.engine).1.1.map (·.item)) :: s.journal
      budget := b }
  unfold Run.Works at hworks
  rw [hall] at hworks
  obtain ⟨later, hj⟩ := hworks.journal
  have hend : Ledger duties s'.journal :=
    (Ledger.passages hworks (hledger.collect k.calendar _ _)).finish
  refine ⟨?_, ⟨later, hj⟩, b, ?_⟩
  · -- nothing is left of the collection, so what was begun of it is all that was due
    have hbalance := hend.balance later _ _ _ _ hj
    rwa [hledger.leftOf_eq_nil (Nat.le_refl _), List.append_nil] at hbalance
  · rw [← Run.all_map _ AgendaEntry.item, Run.all_eq, map_eq_pure_bind] at hall
    obtain ⟨outcomes, s₁, hmap, hpure⟩ := Run.bind_eq_ok.1 hall
    obtain ⟨rfl, rfl⟩ := Run.pure_eq_ok.1 hpure
    exact ⟨outcomes, hb, hmap, rfl⟩

/-- At any moment of a run, of every collection a first part was begun, and all of it if the run
came to its end; and nothing else was begun. -/
theorem begun_of_collected (host : Host κ σ) (p : Program κ σ α) (hs : s.journal = []) :
    (∀ later calendar now due earlier,
      (s.reached host p).journal = later ++ .collected calendar now due :: earlier →
        begun earlier (collections earlier) = [] ∧
          begun (s.reached host p).journal (collections earlier) <+: due ∧
            (s.ends host p = true →
              begun (s.reached host p).journal (collections earlier) = due)) ∧
    ∀ c d, .running c d ∈ (s.reached host p).journal → ∃ later calendar now due earlier,
      (s.reached host p).journal = later ++ .collected calendar now due :: earlier ∧
        c = collections earlier := by
  have hopen : Ledger ([] : List (Duty κ)) s.journal := hs ▸ .nil
  obtain ⟨duties, hpass⟩ := reached_passages host p s
  have hledger := Ledger.passages hpass hopen
  refine ⟨fun later calendar now due earlier hj => ⟨?_, ?_, ?_⟩, fun c d hd => ?_⟩
  · have hsplit := hj.trans (List.append_cons later (.collected calendar now due) earlier)
    exact hledger.begun_eq_nil hsplit (Nat.le_refl _)
  · exact ⟨_, hledger.balance later calendar now due earlier hj⟩
  · intro hends
    have hend := Ledger.passages (ends_passages host p s hends) hopen
    rw [← hend.balance later calendar now due earlier hj]
    exact (List.append_nil _).symm
  · obtain ⟨later, calendar, now, due, earlier, hj, hc⟩ :=
      Journal.exists_collected (hledger.lt_collections hd)
    exact ⟨later, calendar, now, due, earlier, hj, hc.symm⟩

end Session

end Encounter
