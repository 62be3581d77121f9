import Encounter.Text.Numeral
import Mathlib.Data.List.Basic

/-!
# What numerals write

`Text.Numeral s n`: the text is a run of decimal digits, and the number is what it writes. The
readers of numerals accept exactly the texts that write a number of their range and give that number
(`Text.numeral?_eq_some`, `Text.uint32?_eq_some`, `Text.int64?_eq_some`), and whole numbers are
printed as numerals (`Text.numeral_toString`).
-/

set_option autoImplicit false

namespace Encounter.Text

variable {s : List Char} {n n' : Nat} {i : Int}

/-- The text is a run of digits, at least one, and writes the number in tens; leading zeros may
stand. -/
structure Numeral (s : List Char) (n : Nat) : Prop where
  nonempty : s ≠ []
  digits : ∀ c ∈ s, c.isDigit = true
  value : Nat.ofDigitChars 10 s 0 = n

/-- The text is a sign and a numeral behind it, and writes the number with that sign. -/
inductive SignedNumeral : List Char → Int → Prop
  | plus {s : List Char} {n : Nat} (h : Numeral s n) : SignedNumeral ('+' :: s) n
  | minus {s : List Char} {n : Nat} (h : Numeral s n) : SignedNumeral ('-' :: s) (-n)

theorem Numeral.unique (h : Numeral s n) (h' : Numeral s n') : n = n' :=
  h.value.symm.trans h'.value

theorem SignedNumeral.unique {i' : Int} (h : SignedNumeral s i) (h' : SignedNumeral s i') :
    i = i' := by
  cases h with
  | plus h =>
    cases h' with
    | plus h' => rw [h.unique h']
  | minus h =>
    cases h' with
    | minus h' => rw [h.unique h']

theorem SignedNumeral.exists_digits (h : SignedNumeral s i) : ∃ sign digits, s = sign :: digits ∧
    (sign = '+' ∨ sign = '-') ∧ digits ≠ [] ∧ ∀ c ∈ digits, c.isDigit = true := by
  cases h with
  | plus h => exact ⟨_, _, rfl, .inl rfl, h.nonempty, h.digits⟩
  | minus h => exact ⟨_, _, rfl, .inr rfl, h.nonempty, h.digits⟩

/-! ## Reading -/

theorem isDigit_eq (c : Char) : isDigit c = c.isDigit := by
  rw [isDigit, Char.isDigit, Bool.decide_and]
  rfl

theorem digitsValue_eq (s : List Char) : digitsValue s = Nat.ofDigitChars 10 s 0 :=
  Nat.ofDigitChars_eq_foldl.symm

theorem numeral?_eq_some : numeral? s = some n ↔ Numeral s n := by
  have hall : s.all isDigit = true ↔ ∀ c ∈ s, c.isDigit = true := by
    simp only [List.all_eq_true, isDigit_eq]
  unfold numeral?
  split
  · rename_i hs
    exact iff_of_false nofun fun h => h.nonempty (List.isEmpty_iff.1 hs)
  · rename_i hs
    split
    · rename_i hd
      rw [Option.some_inj, digitsValue_eq]
      exact ⟨fun h => ⟨fun he => hs (List.isEmpty_iff.2 he), hall.1 hd, h⟩, Numeral.value⟩
    · rename_i hd
      exact iff_of_false nofun fun h => hd (hall.2 h.digits)

theorem uint32?_eq_some {u : UInt32} : uint32? s = some u ↔ Numeral s u.toNat := by
  unfold uint32?
  cases hn : numeral? s with
  | none =>
    refine iff_of_false nofun fun h => ?_
    rw [numeral?_eq_some.2 h] at hn
    cases hn
  | some n =>
    have hs : Numeral s n := numeral?_eq_some.1 hn
    show (if n < 0x100000000 then some (UInt32.ofNat n) else none) = some u ↔ _
    split
    · rename_i hlt
      have hback : (UInt32.ofNat n).toNat = n := UInt32.toNat_ofNat_of_lt' hlt
      rw [Option.some_inj]
      constructor
      · rintro rfl
        rwa [hback]
      · intro h
        rw [hs.unique h, UInt32.ofNat_toNat]
    · rename_i hge
      exact iff_of_false nofun fun h => hge (hs.unique h ▸ u.toNat_lt)

theorem signed?_plus : signed? ('+' :: s) = some i ↔ ∃ n : Nat, numeral? s = some n ∧ n = i := by
  cases h : numeral? s <;> simp [signed?, h]

theorem signed?_minus :
    signed? ('-' :: s) = some i ↔ ∃ n : Nat, numeral? s = some n ∧ -(n : Int) = i := by
  cases h : numeral? s <;> simp [signed?, h]

theorem signed?_eq_some (h : ∃ sign digits, s = sign :: digits ∧ (sign = '+' ∨ sign = '-')) :
    signed? s = some i ↔ SignedNumeral s i := by
  obtain ⟨sign, digits, rfl, rfl | rfl⟩ := h
  · rw [signed?_plus]
    constructor
    · rintro ⟨n, hn, rfl⟩
      exact .plus (numeral?_eq_some.1 hn)
    · rintro ⟨h⟩
      exact ⟨_, numeral?_eq_some.2 h, rfl⟩
  · rw [signed?_minus]
    constructor
    · rintro ⟨n, hn, rfl⟩
      exact .minus (numeral?_eq_some.1 hn)
    · intro h
      cases h with
      | minus h => exact ⟨_, numeral?_eq_some.2 h, rfl⟩

theorem int64?_eq_some {k : Int64}
    (h : ∃ sign digits, s = sign :: digits ∧ (sign = '+' ∨ sign = '-')) :
    int64? s = some k ↔ SignedNumeral s k.toInt := by
  unfold int64?
  cases hi : signed? s with
  | none =>
    refine iff_of_false nofun fun hk => ?_
    rw [(signed?_eq_some h).2 hk] at hi
    cases hi
  | some i =>
    have hs : SignedNumeral s i := (signed?_eq_some h).1 hi
    show (if _ then some (Int64.ofInt i) else none) = some k ↔ _
    split
    · rename_i hin
      have hback : (Int64.ofInt i).toInt = i := Int64.toInt_ofInt_of_le hin.1 hin.2
      rw [Option.some_inj]
      constructor
      · rintro rfl
        rwa [hback]
      · intro hk
        rw [hs.unique hk, Int64.ofInt_toInt]
    · rename_i hout
      exact iff_of_false nofun fun hk => hout (hs.unique hk ▸ ⟨k.le_toInt, k.toInt_lt⟩)

/-! ## Printing -/

theorem numeral_toString (n : Nat) : Numeral (toString n).toList n := by
  rw [Nat.toString_eq_ofList_toDigits, String.toList_ofList]
  exact ⟨Nat.toDigits_ne_nil, fun _ hc => Nat.isDigit_of_mem_toDigits (by decide) (by decide) hc,
    Nat.ofDigitChars_ten_toDigits⟩

theorem signedNumeral_toString_of_pos (h : 0 < i) :
    SignedNumeral ('+' :: (toString i).toList) i := by
  obtain ⟨n, rfl⟩ := Int.eq_ofNat_of_zero_le (Int.le_of_lt h)
  exact .plus (numeral_toString n)

theorem signedNumeral_toString_of_neg (h : i < 0) : SignedNumeral (toString i).toList i := by
  obtain ⟨n, rfl⟩ := Int.eq_negSucc_of_lt_zero h
  have htext : (toString (Int.negSucc n)).toList = '-' :: (toString (n + 1)).toList :=
    String.toList_append
  rw [htext]
  exact .minus (numeral_toString (n + 1))

end Encounter.Text
