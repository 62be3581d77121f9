import Encounter.Dice.Expression
import Encounter.Text.LowerCase

/-!
# The letters of dice expressions

A dice expression in its compact form consists of digits, `d` and signs (`Dice.isSymbol`). Lower
case makes one of these only of itself and of the capital `D` (`Dice.isSymbol_of_lowerForm`), so
putting a text into lower case and only the letter `D` of it comes to the same, as far as the result
consists of them (`Dice.lowerCase_eq`).
-/

set_option autoImplicit false

namespace Encounter

namespace Text

/-- The letters of a range come in order, from the first one's form on. -/
theorem form?_eq_some {r : CaseRange} {n form : Nat} : r.form? n = some form ↔
    (r.first ≤ n ∧ n ≤ r.last ∧ (n - r.first) % r.step = 0) ∧ form = r.form + (n - r.first) := by
  unfold CaseRange.form?
  split
  · rename_i h
    rw [Option.some_inj, and_iff_right h]
    exact eq_comm
  · rename_i h
    exact iff_of_false nofun fun hf => h hf.1

/-- The capitals of the alphabet are a range, and nothing else has its form among them or before
them. -/
theorem caseRanges_apart : ∀ r ∈ caseRanges, r = ⟨0x41, 0x5a, 1, 0x61⟩ ∨
    0x7f < r.first ∧ 0x64 < r.form := by
  decide +kernel

end Text

namespace Dice

variable {c : Char} {s : List Char}

/-- Is it one of the characters of a dice expression in its compact form? -/
def isSymbol (c : Char) : Bool :=
  Text.isDigit c || c = 'd' || c = '+' || c = '-'

theorem isSymbol_iff : isSymbol c = true ↔
    (0x30 ≤ c.toNat ∧ c.toNat ≤ 0x39) ∨ c.toNat = 0x64 ∨ c.toNat = 0x2b ∨ c.toNat = 0x2d := by
  have hdigit : Text.isDigit c = true ↔ 0x30 ≤ c.toNat ∧ c.toNat ≤ 0x39 := by
    simp [Text.isDigit, Char.le_def, UInt32.le_iff_toNat_le]
  simp only [isSymbol, Bool.or_eq_true, hdigit, decide_eq_true_eq, ← Char.toNat_inj, or_assoc]
  rfl

theorem toNat_lower : (lower c).toNat = if c.toNat = 0x44 then 0x64 else c.toNat := by
  have hd : c = 'D' ↔ c.toNat = 0x44 := Char.toNat_inj.symm
  unfold lower
  simp only [hd]
  split <;> rfl

/-- A number stands for a symbol only if it is one's own. -/
theorem isSymbol_ofNat {n : Nat} (h : isSymbol (Char.ofNat n) = true) :
    (0x30 ≤ n ∧ n ≤ 0x39) ∨ n = 0x64 ∨ n = 0x2b ∨ n = 0x2d := by
  have hback : (Char.ofNat n).toNat = n ∨ (Char.ofNat n).toNat = 0 := by
    by_cases hn : n.isValidChar
    · exact .inl (by rw [Char.ofNat, dif_pos hn]; rfl)
    · exact .inr (by rw [Char.ofNat, dif_neg hn]; rfl)
  rw [isSymbol_iff] at h
  omega

/-- A symbol has no lower case. -/
theorem lowerForm_of_isSymbol (h : isSymbol (lower c) = true) : Text.lowerForm c = [lower c] := by
  rw [isSymbol_iff, toNat_lower] at h
  by_cases hd : c = 'D'
  · subst hd
    decide +kernel
  · have hc : c.toNat ≠ 0x44 := fun he => hd (Char.toNat_inj.1 he)
    rw [if_neg hc] at h
    have hdot : c ≠ '\u0130' := by
      rintro rfl
      revert h
      decide
    have hnone : Text.caseRanges.findSome? (·.form? c.toNat) = none := by
      rw [List.findSome?_eq_none_iff]
      intro r hr
      rw [← Option.not_isSome_iff_eq_none, Option.isSome_iff_exists]
      rintro ⟨form, hf⟩
      obtain ⟨hin, -⟩ := Text.form?_eq_some.1 hf
      rcases Text.caseRanges_apart r hr with rfl | ⟨hfirst, -⟩
      · simp only at hin
        omega
      · omega
    rw [Text.lowerForm, if_neg hdot, hnone, lower, if_neg hd]

/-- What has a symbol for its lower case is one, or a capital `D`. -/
theorem isSymbol_of_lowerForm (h : ∀ x ∈ Text.lowerForm c, isSymbol x = true) :
    isSymbol (lower c) = true := by
  unfold Text.lowerForm at h
  split at h
  · exact absurd (h 'i' List.mem_cons_self) (by decide)
  · split at h
    · rename_i form hform
      obtain ⟨r, hr, hf⟩ := List.exists_of_findSome?_eq_some hform
      obtain ⟨hin, rfl⟩ := Text.form?_eq_some.1 hf
      have hsym := isSymbol_ofNat (h _ (List.mem_singleton_self _))
      rw [isSymbol_iff, toNat_lower]
      rcases Text.caseRanges_apart r hr with rfl | ⟨-, hbig⟩
      · simp only at hin hsym
        split <;> omega
      · omega
    · have hsym := h _ (List.mem_singleton_self _)
      rw [isSymbol_iff] at hsym
      rw [isSymbol_iff, toNat_lower]
      split <;> omega

theorem lowerBehind_eq (endsWord : List Char → List Char → Bool) (before : List Char)
    (h : (∀ x ∈ Text.lowerBehind endsWord before s, isSymbol x = true) ∨
      ∀ x ∈ s.map lower, isSymbol x = true) :
    Text.lowerBehind endsWord before s = s.map lower := by
  induction s generalizing before with
  | nil => rfl
  | cons c rest ih =>
    simp only [Text.lowerBehind, List.map_cons, List.forall_mem_append, List.forall_mem_cons] at h ⊢
    have hrest := ih (c :: before) (h.imp And.right And.right)
    rw [hrest]
    split at h
    · -- neither form of a sigma is a symbol
      rename_i hc
      subst hc
      rcases h with ⟨hform, -⟩ | ⟨hsigma, -⟩
      · split at hform <;> exact absurd (hform _ (List.mem_singleton_self _)) (by decide)
      · exact absurd hsigma (by decide)
    · rename_i hc
      rw [if_neg hc, lowerForm_of_isSymbol (h.elim (fun h => isSymbol_of_lowerForm h.1) And.left)]
      rfl

/-- Putting a text into lower case and only its letters `D` comes to the same where the outcome
could be a dice expression. -/
theorem lowerCase_eq (endsWord : List Char → List Char → Bool)
    (h : (∀ x ∈ Text.lowerCase endsWord s, isSymbol x = true) ∨
      ∀ x ∈ s.map lower, isSymbol x = true) :
    Text.lowerCase endsWord s = s.map lower :=
  lowerBehind_eq endsWord [] h

end Dice

end Encounter
