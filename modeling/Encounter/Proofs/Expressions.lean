import Encounter.Dice.Expression
import Encounter.Proofs.Numerals
import Encounter.Proofs.Spelling

/-!
# The grammar of dice expressions

`Dice.Writes c count sides modifier`: the text `c` has the form of a dice expression and writes these
numbers, which may be of any size. `Dice.Reading input c` says what is to become of an input of
which `c` is the compact form, and `Dice.parse_by_grammar` that this is what becomes of it, the
compact form being the input without white space and in lower case.

Cutting a text into its parts and finding the grammar's parts in it is the same (`Dice.writes_iff`),
so a text has one reading at most (`Dice.Writes.unique`).
-/

set_option autoImplicit false

namespace Encounter.Dice

open Text (Numeral SignedNumeral)

/-! ## The grammar -/

/-- The text of a number of dice; none is one. -/
inductive WritesCount : List Char → Nat → Prop
  | missing : WritesCount [] 1
  | given {s : List Char} {n : Nat} (h : Numeral s n) : WritesCount s n

/-- The text of a modifier; none is zero. -/
inductive WritesModifier : List Char → Int → Prop
  | missing : WritesModifier [] 0
  | given {s : List Char} {i : Int} (h : SignedNumeral s i) : WritesModifier s i

/-- The text of a dice expression: the number of dice, a `d`, the number of sides, and the
modifier. -/
inductive Writes : List Char → Nat → Nat → Int → Prop
  | intro {k s m : List Char} {count sides : Nat} {modifier : Int} (hk : WritesCount k count)
      (hs : Numeral s sides) (hm : WritesModifier m modifier) :
      Writes (k ++ 'd' :: (s ++ m)) count sides modifier

/-- Do the numbers fit into their types? -/
def Fits (count sides : Nat) (modifier : Int) : Prop :=
  count ≤ 0xffffffff ∧ sides ≤ 0xffffffff ∧
    -0x8000000000000000 ≤ modifier ∧ modifier ≤ 0x7fffffffffffffff

/-- What is to become of an input, by its compact form. -/
inductive Reading (input : String) (c : List Char) : Except DiceError Dice → Prop
  | misshapen (h : ∀ count sides modifier, ¬ Writes c count sides modifier) :
      Reading input c (.error (.badFormat input))
  | outOfRange {count sides : Nat} {modifier : Int} (hw : Writes c count sides modifier)
      (hf : ¬ Fits count sides modifier) : Reading input c (.error (.badFormat input))
  | badCount {count sides : Nat} {modifier : Int} (hw : Writes c count sides modifier)
      (hf : Fits count sides modifier) (hcount : count = 0 ∨ 1000 < count) :
      Reading input c (.error .badCount)
  | badSides {count sides : Nat} {modifier : Int} (hw : Writes c count sides modifier)
      (hf : Fits count sides modifier) (hcount : 1 ≤ count ∧ count ≤ 1000) (hsides : sides < 2) :
      Reading input c (.error .badSides)
  | dice (dice : Dice)
      (hw : Writes c dice.count.toNat dice.sides.toNat dice.modifier.toInt)
      (hcount : 1 ≤ dice.count.toNat ∧ dice.count.toNat ≤ 1000) (hsides : 2 ≤ dice.sides.toNat) :
      Reading input c (.ok dice)

variable {c k s m : List Char} {count sides : Nat} {modifier : Int} {p : Parts} {dice : Dice}

theorem WritesCount.unique {count' : Nat} (h : WritesCount k count) (h' : WritesCount k count') :
    count = count' := by
  cases h with
  | missing =>
    cases h' with
    | missing => rfl
    | given h' => exact absurd rfl h'.nonempty
  | given h =>
    cases h' with
    | missing => exact absurd rfl h.nonempty
    | given h' => exact h.unique h'

theorem WritesCount.digits (h : WritesCount k count) : ∀ x ∈ k, Text.isDigit x = true := by
  simp only [Text.isDigit_eq]
  cases h with
  | missing => exact nofun
  | given h => exact h.digits

/-! ## Parts -/

/-- The numbers that the parts of a text write. -/
structure Parts.Say (p : Parts) (count sides : Nat) (modifier : Int) : Prop where
  count : WritesCount p.count count
  sides : Numeral p.sides sides
  modifier : match p.modifier with
    | some signed => SignedNumeral signed modifier
    | none => modifier = 0

theorem Parts.Say.unique {count' sides' : Nat} {modifier' : Int} (h : p.Say count sides modifier)
    (h' : p.Say count' sides' modifier') :
    count = count' ∧ sides = sides' ∧ modifier = modifier' := by
  refine ⟨h.count.unique h'.count, h.sides.unique h'.sides, ?_⟩
  have hm := h.modifier
  have hm' := h'.modifier
  cases hp : p.modifier with
  | none =>
    rw [hp] at hm hm'
    exact hm.trans hm'.symm
  | some signed =>
    rw [hp] at hm hm'
    exact SignedNumeral.unique hm hm'

/-- A text is put together of its parts, and its modifier has a sign. -/
theorem text_of_parts? (h : parts? c = some p) :
    c = p.count ++ 'd' :: (p.sides ++ p.modifier.getD []) ∧ ∀ signed, p.modifier = some signed →
      ∃ sign digits, signed = sign :: digits ∧ (sign = '+' ∨ sign = '-') := by
  have hcut := List.takeWhile_append_dropWhile (p := Text.isDigit) (l := c)
  unfold parts? at h
  dsimp only at h
  split at h
  · rename_i rest hrest
    have hcut' := List.takeWhile_append_dropWhile (p := Text.isDigit) (l := rest)
    rw [hrest] at hcut
    split at h
    · cases h
    · split at h
      · rename_i hend
        cases h
        rw [hend] at hcut'
        refine ⟨?_, nofun⟩
        show c = c.takeWhile Text.isDigit ++ 'd' :: (rest.takeWhile Text.isDigit ++ [])
        rw [hcut', hcut]
      · rename_i sign digits hend
        rw [hend] at hcut'
        split at h
        · rename_i hsigned
          cases h
          refine ⟨?_, ?_⟩
          · show c = c.takeWhile Text.isDigit ++
              'd' :: (rest.takeWhile Text.isDigit ++ sign :: digits)
            rw [hcut', hcut]
          · rintro _ ⟨⟩
            exact ⟨sign, digits, rfl, hsigned.1⟩
        · cases h
  · cases h

/-- A text that is put together of parts is cut into them. -/
theorem exists_parts? (h : Writes c count sides modifier) :
    ∃ p, parts? c = some p ∧ p.Say count sides modifier := by
  obtain @⟨k, s, m, _, _, _, hk, hs, hm⟩ := h
  have hdigits : ∀ x ∈ s, Text.isDigit x = true := by
    simpa only [Text.isDigit_eq] using hs.digits
  -- the digits in front end at the `d`
  have htake : (k ++ 'd' :: (s ++ m)).takeWhile Text.isDigit = k := by
    rw [List.takeWhile_append_of_pos hk.digits, List.takeWhile_cons_of_neg (by decide),
      List.append_nil]
  have hdrop : (k ++ 'd' :: (s ++ m)).dropWhile Text.isDigit = 'd' :: (s ++ m) := by
    rw [List.dropWhile_append_of_pos hk.digits, List.dropWhile_cons_of_neg (by decide)]
  simp only [parts?, htake, hdrop]
  rw [List.takeWhile_append_of_pos hdigits, List.dropWhile_append_of_pos hdigits]
  cases hm with
  | missing =>
    refine ⟨⟨k, s, none⟩, ?_, ⟨hk, hs, rfl⟩⟩
    simp [hs.nonempty]
  | given hm =>
    obtain ⟨sign, digits, rfl, hsign, hne, hall⟩ := hm.exists_digits
    have hstop : Text.isDigit sign = false := by
      rcases hsign with rfl | rfl <;> decide
    refine ⟨⟨k, s, some (sign :: digits)⟩, ?_, ⟨hk, hs, hm⟩⟩
    simpa [hs.nonempty, hstop, hsign, hne, Text.isDigit_eq] using hall

/-- The number of dice that the parts give. -/
def Parts.count? (p : Parts) : Option UInt32 :=
  if p.count.isEmpty then some 1 else Text.uint32? p.count

/-- The modifier that the parts give. -/
def Parts.modifier? (p : Parts) : Option Int64 :=
  match p.modifier with
  | some signed => Text.int64? signed
  | none => some 0

theorem toDice?_eq (p : Parts) : p.toDice? = p.count?.bind fun count =>
    (Text.uint32? p.sides).bind fun sides =>
      p.modifier?.bind fun modifier => some ⟨count, sides, modifier⟩ := by
  obtain ⟨count, sides, modifier⟩ := p
  cases count <;> cases modifier <;> rfl

theorem count?_eq_some {n : UInt32} : p.count? = some n ↔ WritesCount p.count n.toNat := by
  unfold Parts.count?
  generalize p.count = k
  cases k with
  | nil =>
    show some 1 = some n ↔ _
    rw [Option.some_inj]
    constructor
    · rintro rfl
      exact .missing
    · intro hn
      exact UInt32.toNat_inj.1 (WritesCount.missing.unique hn)
  | cons first rest =>
    show Text.uint32? (first :: rest) = some n ↔ _
    rw [Text.uint32?_eq_some]
    refine ⟨.given, fun hn => ?_⟩
    cases hn with
    | given hn => exact hn

theorem modifier?_eq_some {i : Int64} (h : ∀ signed, p.modifier = some signed →
    ∃ sign digits, signed = sign :: digits ∧ (sign = '+' ∨ sign = '-')) :
    p.modifier? = some i ↔ match p.modifier with
      | some signed => SignedNumeral signed i.toInt
      | none => i.toInt = 0 := by
  unfold Parts.modifier?
  cases hm : p.modifier with
  | none =>
    show some 0 = some i ↔ i.toInt = (0 : Int64).toInt
    rw [Option.some_inj, Int64.toInt_inj]
    exact eq_comm
  | some signed => exact Text.int64?_eq_some (h signed hm)

theorem toDice?_eq_some (h : ∀ signed, p.modifier = some signed →
    ∃ sign digits, signed = sign :: digits ∧ (sign = '+' ∨ sign = '-')) :
    p.toDice? = some dice ↔ p.Say dice.count.toNat dice.sides.toNat dice.modifier.toInt := by
  obtain ⟨count, sides, modifier⟩ := dice
  simp only [toDice?_eq, Option.bind_eq_some_iff, Option.some_inj, Dice.mk.injEq]
  constructor
  · rintro ⟨_, hc, _, hs, _, hm, rfl, rfl, rfl⟩
    exact ⟨count?_eq_some.1 hc, Text.uint32?_eq_some.1 hs, (modifier?_eq_some h).1 hm⟩
  · rintro ⟨hc, hs, hm⟩
    exact ⟨_, count?_eq_some.2 hc, _, Text.uint32?_eq_some.2 hs, _, (modifier?_eq_some h).2 hm,
      rfl, rfl, rfl⟩

/-- Cutting a text into its parts finds what the grammar says. -/
theorem writes_iff : Writes c count sides modifier ↔
    ∃ p, parts? c = some p ∧ p.Say count sides modifier := by
  refine ⟨exists_parts?, ?_⟩
  rintro ⟨p, hp, hsay⟩
  have htext := (text_of_parts? hp).1
  have hm : WritesModifier (p.modifier.getD []) modifier := by
    have hm := hsay.modifier
    cases hmod : p.modifier with
    | none =>
      rw [hmod] at hm
      subst hm
      exact .missing
    | some signed =>
      rw [hmod] at hm
      exact .given hm
  rw [htext]
  exact ⟨hsay.count, hsay.sides, hm⟩

theorem Writes.unique {count' sides' : Nat} {modifier' : Int} (h : Writes c count sides modifier)
    (h' : Writes c count' sides' modifier') :
    count = count' ∧ sides = sides' ∧ modifier = modifier' := by
  obtain ⟨p, hp, hsay⟩ := writes_iff.1 h
  obtain ⟨p', hp', hsay'⟩ := writes_iff.1 h'
  cases hp.symm.trans hp'
  exact hsay.unique hsay'

/-- The numbers of a text are read if they fit into their types. -/
theorem read_eq_some : (parts? c).bind Parts.toDice? = some dice ↔
    Writes c dice.count.toNat dice.sides.toNat dice.modifier.toInt := by
  rw [Option.bind_eq_some_iff, writes_iff]
  exact exists_congr fun p => and_congr_right fun hp => toDice?_eq_some (text_of_parts? hp).2

/-! ## Reading by the grammar -/

theorem exists_of_fits (hf : Fits count sides modifier) : ∃ dice : Dice,
    dice.count.toNat = count ∧ dice.sides.toNat = sides ∧ dice.modifier.toInt = modifier := by
  obtain ⟨hc, hs, hlow, hhigh⟩ := hf
  exact ⟨⟨.ofNat count, .ofNat sides, .ofInt modifier⟩,
    UInt32.toNat_ofNat_of_lt' (by rw [UInt32.size]; omega),
    UInt32.toNat_ofNat_of_lt' (by rw [UInt32.size]; omega),
    Int64.toInt_ofInt_of_le hlow (by omega)⟩

theorem fits (dice : Dice) :
    Fits dice.count.toNat dice.sides.toNat dice.modifier.toInt := by
  have hc := dice.count.toNat_lt
  have hs := dice.sides.toNat_lt
  have hlow := dice.modifier.le_toInt
  have hhigh := dice.modifier.toInt_lt
  exact ⟨by omega, by omega, by omega, by omega⟩

/-- The compact form of an input, as far as the reader brings it into lower case. -/
def compact (input : String) : List Char :=
  (Text.withoutBlanks input.toList).map lower

theorem parse_of_none {input : String} (h : (parts? (compact input)).bind Parts.toDice? = none) :
    parse input = .error (.badFormat input) := by
  unfold parse
  rw [compact] at h
  rw [h]

theorem parse_of_some {input : String}
    (h : (parts? (compact input)).bind Parts.toDice? = some dice) : parse input =
      if dice.count.toNat = 0 ∨ 1000 < dice.count.toNat then .error .badCount
      else if dice.sides.toNat < 2 then .error .badSides
      else .ok dice := by
  have hzero : dice.count = 0 ↔ dice.count.toNat = 0 := UInt32.toNat_inj.symm
  unfold parse
  rw [compact] at h
  rw [h]
  simp only [hzero, UInt32.lt_iff_toNat_lt]
  rfl

/-- What the reader makes of an input is what is to become of it. -/
theorem reading_parse (input : String) : Reading input (compact input) (parse input) := by
  cases h : (parts? (compact input)).bind Parts.toDice? with
  | none =>
    rw [parse_of_none h]
    by_cases hw : ∃ count sides modifier, Writes (compact input) count sides modifier
    · obtain ⟨count, sides, modifier, hw⟩ := hw
      refine .outOfRange hw fun hf => ?_
      obtain ⟨dice, rfl, rfl, rfl⟩ := exists_of_fits hf
      rw [read_eq_some.2 hw] at h
      cases h
    · exact .misshapen fun count sides modifier hc => hw ⟨count, sides, modifier, hc⟩
  | some dice =>
    have hw := read_eq_some.1 h
    rw [parse_of_some h]
    split
    · rename_i hcount
      exact .badCount hw dice.fits hcount
    · rename_i hcount
      have hcount : 1 ≤ dice.count.toNat ∧ dice.count.toNat ≤ 1000 := by omega
      split
      · rename_i hsides
        exact .badSides hw dice.fits hcount hsides
      · rename_i hsides
        exact .dice dice hw hcount (Nat.le_of_not_lt hsides)

/-- What is to become of an input is what the reader makes of it. -/
theorem Reading.parse_eq {input : String} {r : Except DiceError Dice}
    (h : Reading input (compact input) r) : parse input = r := by
  have hnone : (∀ dice : Dice, ¬ Writes (compact input) dice.count.toNat dice.sides.toNat
      dice.modifier.toInt) → parse input = .error (.badFormat input) := fun hno =>
    parse_of_none (Option.eq_none_iff_forall_not_mem.2 fun dice hd => hno dice (read_eq_some.1 hd))
  cases h with
  | misshapen h => exact hnone fun _ => h _ _ _
  | outOfRange hw hf =>
    refine hnone fun dice hd => hf ?_
    obtain ⟨rfl, rfl, rfl⟩ := hw.unique hd
    exact dice.fits
  | badCount hw hf hcount =>
    obtain ⟨dice, rfl, rfl, rfl⟩ := exists_of_fits hf
    rw [parse_of_some (read_eq_some.2 hw), if_pos hcount]
  | badSides hw hf hcount hsides =>
    obtain ⟨dice, rfl, rfl, rfl⟩ := exists_of_fits hf
    rw [parse_of_some (read_eq_some.2 hw), if_neg (by omega), if_pos hsides]
  | dice dice hw hcount hsides =>
    rw [parse_of_some (read_eq_some.2 hw), if_neg (by omega), if_neg (by omega)]

/-! ## Lower case -/

theorem isSymbol_of_isDigit {x : Char} (h : x.isDigit = true) : isSymbol x = true := by
  rw [isSymbol, Text.isDigit_eq, h]
  rfl

theorem Writes.isSymbol (h : Writes c count sides modifier) : ∀ x ∈ c, isSymbol x = true := by
  obtain ⟨hk, hs, hm⟩ := h
  simp only [List.forall_mem_append, List.forall_mem_cons]
  refine ⟨fun x hx => isSymbol_of_isDigit (Text.isDigit_eq x ▸ hk.digits x hx), by decide,
    fun x hx => isSymbol_of_isDigit (hs.digits x hx), ?_⟩
  cases hm with
  | missing => exact nofun
  | given hm =>
    obtain ⟨sign, digits, rfl, hsign, -, hall⟩ := hm.exists_digits
    rw [List.forall_mem_cons]
    refine ⟨?_, fun x hx => isSymbol_of_isDigit (hall x hx)⟩
    rcases hsign with rfl | rfl <;> decide

theorem writes_lowerCase (endsWord : List Char → List Char → Bool) (s : List Char) :
    Writes (Text.lowerCase endsWord s) count sides modifier ↔
      Writes (s.map lower) count sides modifier := by
  constructor
  · intro h
    rwa [← lowerCase_eq endsWord (.inl h.isSymbol)]
  · intro h
    rwa [lowerCase_eq endsWord (.inr h.isSymbol)]

theorem Reading.congr {input : String} {c' : List Char} {r : Except DiceError Dice}
    (hc : ∀ count sides modifier, Writes c' count sides modifier ↔ Writes c count sides modifier)
    (h : Reading input c r) : Reading input c' r := by
  cases h with
  | misshapen h => exact .misshapen fun _ _ _ hw => h _ _ _ ((hc ..).1 hw)
  | outOfRange hw hf => exact .outOfRange ((hc ..).2 hw) hf
  | badCount hw hf hcount => exact .badCount ((hc ..).2 hw) hf hcount
  | badSides hw hf hcount hsides => exact .badSides ((hc ..).2 hw) hf hcount hsides
  | dice dice hw hcount hsides => exact .dice dice ((hc ..).2 hw) hcount hsides

/-- A dice expression is read exactly as the grammar says, from the input without white space and in
lower case; an input that has not its form, or in which a number exceeds its type, is refused with
its text, and after that the number of dice counts before the number of sides. -/
theorem parse_by_grammar (endsWord : List Char → List Char → Bool) (input : String)
    (r : Except DiceError Dice) : parse input = r ↔
      Reading input (Text.lowerCase endsWord (Text.withoutBlanks input.toList)) r := by
  constructor
  · rintro rfl
    exact (reading_parse input).congr fun _ _ _ => writes_lowerCase endsWord _
  · intro h
    exact Reading.parse_eq (h.congr fun _ _ _ => (writes_lowerCase endsWord _).symm)

end Encounter.Dice
