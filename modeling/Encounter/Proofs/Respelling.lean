import Encounter.Proofs.Expressions

/-!
# Printed dice expressions

A dice expression that is printed is written by the grammar (`Dice.writes_text`), and a text does not
lose its reading when white space is put into it or letters change their case
(`Dice.Respelling.compact`). So what is printed reads back, however it is spelt
(`Dice.text_reads_back`).
-/

set_option autoImplicit false

namespace Encounter.Dice

variable {s t : List Char} {dice : Dice}

/-! ## Printing -/

theorem toList_text (dice : Dice) : (text dice).toList =
    (toString dice.count.toNat).toList ++ 'd' :: ((toString dice.sides.toNat).toList ++
      if dice.modifier = 0 then [] else
        if 0 < dice.modifier then '+' :: (toString dice.modifier.toInt).toList
        else (toString dice.modifier.toInt).toList) := by
  have hd : "d".toList = ['d'] := rfl
  have hplus : "+".toList = ['+'] := rfl
  unfold text
  split
  · simp only [String.toList_append, hd, List.append_assoc, List.cons_append, List.nil_append,
      List.append_nil]
    rfl
  · split <;>
    · simp only [String.toList_append, hd, hplus, List.append_assoc, List.cons_append,
        List.nil_append]
      rfl

theorem writesModifier_text (i : Int64) : WritesModifier (if i = 0 then [] else
    if 0 < i then '+' :: (toString i.toInt).toList else (toString i.toInt).toList) i.toInt := by
  split
  · rename_i h
    subst h
    exact .missing
  · rename_i hzero
    have hzero : i.toInt ≠ 0 := fun h => hzero (Int64.toInt_inj.1 h)
    split
    · rename_i hpos
      exact .given (Text.signedNumeral_toString_of_pos (Int64.lt_iff_toInt_lt.1 hpos))
    · rename_i hpos
      have hpos : ¬ 0 < i.toInt := fun h => hpos (Int64.lt_iff_toInt_lt.2 h)
      exact .given (Text.signedNumeral_toString_of_neg (by omega))

theorem writes_text (dice : Dice) : Writes (text dice).toList dice.count.toNat dice.sides.toNat
    dice.modifier.toInt := by
  rw [toList_text]
  exact .intro (.given (Text.numeral_toString _)) (Text.numeral_toString _)
    (writesModifier_text dice.modifier)

/-! ## Spelling -/

/-- The second text is the first one with white space put into it anywhere, and with letters in
another case. -/
inductive Respelling : List Char → List Char → Prop
  | nil : Respelling [] []
  | blank {s t : List Char} {b : Char} (hb : Text.isBlank b = true) (h : Respelling s t) :
      Respelling s (b :: t)
  | letter {s t : List Char} {c c' : Char} (hc : Text.lowerForm c' = Text.lowerForm c)
      (h : Respelling s t) : Respelling (c :: s) (c' :: t)

theorem Respelling.refl (s : List Char) : Respelling s s := by
  induction s with
  | nil => exact .nil
  | cons c rest ih => exact .letter rfl ih

theorem isBlank_of_isSymbol {c : Char} (h : isSymbol (lower c) = true) :
    Text.isBlank c = false := by
  rw [isSymbol_iff, toNat_lower] at h
  rw [Text.isBlank, decide_eq_false_iff_not]
  split at h <;> omega

/-- The blanks go out again, and lower case undoes the change of case. -/
theorem Respelling.compact (h : Respelling s t) (hs : ∀ c ∈ s, isSymbol (lower c) = true) :
    (Text.withoutBlanks t).map lower = s.map lower := by
  induction h with
  | nil => rfl
  | blank hb _ ih =>
    rw [← ih hs, Text.withoutBlanks, List.filter_cons_of_neg (by simp [hb])]
    rfl
  | @letter s t c c' hc _ ih =>
    rw [List.forall_mem_cons] at hs
    rw [lowerForm_of_isSymbol hs.1] at hc
    have hsymbol : isSymbol (lower c') = true := by
      refine isSymbol_of_lowerForm fun x hx => ?_
      rw [hc, List.mem_singleton] at hx
      exact hx ▸ hs.1
    have hsame : lower c' = lower c := by
      rw [lowerForm_of_isSymbol hsymbol] at hc
      exact List.singleton_inj.1 hc
    have hkeep : Text.withoutBlanks (c' :: t) = c' :: Text.withoutBlanks t :=
      List.filter_cons_of_pos (by simp [isBlank_of_isSymbol hsymbol])
    rw [hkeep, List.map_cons, List.map_cons, hsame, ih hs.2]

theorem lower_of_isSymbol {c : Char} (h : isSymbol c = true) : lower c = c := by
  rw [lower, if_neg]
  rintro rfl
  revert h
  decide

/-- A dice expression is read from any spelling of its text. -/
theorem parse_of_respelling {input : String} (h : Respelling (text dice).toList input.toList)
    (hcount : 1 ≤ dice.count.toNat ∧ dice.count.toNat ≤ 1000) (hsides : 2 ≤ dice.sides.toNat) :
    parse input = .ok dice := by
  have hw := writes_text dice
  have hlower : ∀ c ∈ (text dice).toList, lower c = c := fun c hc =>
    lower_of_isSymbol (hw.isSymbol c hc)
  have hcompact : Dice.compact input = (text dice).toList := by
    rw [Dice.compact, h.compact fun c hc => (hlower c hc).symm ▸ hw.isSymbol c hc]
    exact (List.map_congr_left hlower).trans (List.map_id' _)
  exact Reading.parse_eq (.dice dice (hcompact ▸ hw) hcount hsides)

/-- A dice expression that was read has numbers that it may have. -/
theorem bounds_of_parse {input : String} (h : parse input = .ok dice) :
    (1 ≤ dice.count.toNat ∧ dice.count.toNat ≤ 1000) ∧ 2 ≤ dice.sides.toNat := by
  have hr := reading_parse input
  rw [h] at hr
  cases hr with
  | dice _ _ hcount hsides => exact ⟨hcount, hsides⟩

/-- A printed dice expression is read as what it was, also after white space was put into it and
letters changed their case; so what was read from any text is read again from its own text, and
printed the same. -/
theorem text_reads_back : (∀ dice : Dice, 1 ≤ dice.count.toNat → dice.count.toNat ≤ 1000 →
      2 ≤ dice.sides.toNat → parse (text dice) = .ok dice ∧
        ∀ input : String, Respelling (text dice).toList input.toList → parse input = .ok dice) ∧
    ∀ (input : String) (dice : Dice), parse input = .ok dice →
      parse (text dice) = .ok dice ∧ (parse (text dice)).map text = .ok (text dice) := by
  refine ⟨fun dice hone hmost hsides => ⟨?_, fun input h => ?_⟩, fun input dice h => ?_⟩
  · exact parse_of_respelling (.refl _) ⟨hone, hmost⟩ hsides
  · exact parse_of_respelling h ⟨hone, hmost⟩ hsides
  · obtain ⟨hcount, hsides⟩ := bounds_of_parse h
    have hback : parse (text dice) = .ok dice := parse_of_respelling (.refl _) hcount hsides
    exact ⟨hback, by rw [hback]; rfl⟩

/-- So it is with the least modifier, and with blanks before and behind the sides. -/
theorem text_reads_back_deep :
    Respelling (text ⟨3, 4, -9223372036854775808⟩).toList "3D 4 -9223372036854775808".toList ∧
      parse (text ⟨3, 4, -9223372036854775808⟩) = .ok ⟨3, 4, -9223372036854775808⟩ ∧
        parse "3D 4 -9223372036854775808" = .ok ⟨3, 4, -9223372036854775808⟩ ∧
          (parse (text ⟨3, 4, -9223372036854775808⟩)).map text =
            .ok "3d4-9223372036854775808" := by
  have htext : text ⟨3, 4, -9223372036854775808⟩ = "3d4-9223372036854775808" := by decide +kernel
  have hspelt : Respelling (text ⟨3, 4, -9223372036854775808⟩).toList
      "3D 4 -9223372036854775808".toList := by
    rw [htext]
    exact .letter rfl <| .letter (by decide +kernel) <| .blank (by decide) <| .letter rfl <|
      .blank (by decide) <| .refl _
  obtain ⟨hback, hspellings⟩ := text_reads_back.1 ⟨3, 4, -9223372036854775808⟩ (by decide)
    (by decide) (by decide)
  refine ⟨hspelt, hback, hspellings _ hspelt, ?_⟩
  rw [(text_reads_back.2 _ _ hback).2, htext]

end Encounter.Dice
