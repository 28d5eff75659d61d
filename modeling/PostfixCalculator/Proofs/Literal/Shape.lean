import PostfixCalculator.Proofs.Literal.Flat

/-!
# The shape of the flat form

Writing a literal without its exponent moves the point, fills up with zeros and takes off the zeros
in front.  What comes out has no superfluous zero in front and no bare point, and it is longer than
the literal by at most the largest exponent.

## Main results

* `Spelling.length_chars` — the length of a spelling, piece by piece.
* `length_chars_pointed_le` — how far a point placed among digits or beside them can lengthen them.
* `Literal.isTrimmed_flatSpelling`, `Literal.places_flatSpelling_ne` — the shape of a flat form that
  replaces an exponent.
* `Literal.length_flatChars_le` — the bound on the length.
* `Literal.flat_denotes` — **the flat form denotes the literal**, in the right shape, with as many
  places as are counted and within the bound.
-/

namespace PostfixCalculator

open Decimal

/-! ### Lengths of spellings -/

namespace Decimal

theorem Spelling.length_chars (s : Spelling) :
    s.chars.length = s.negative.toNat + s.whole.length + (pointChars s.places).length := by
  rw [chars_eq, List.length_append, List.length_append, Numeral.length_text]
  cases s.negative <;> simp [Nat.add_assoc]

/-- Trimming makes no spelling with a whole part longer. -/
theorem Spelling.length_chars_trimmed_le {s : Spelling} (h : s.whole ≠ []) :
    s.trimmed.chars.length ≤ s.chars.length := by
  have hwhole := Numeral.length_trim_le h
  rw [length_chars, length_chars, trimmed]
  dsimp only
  omega

end Decimal

/-- A point among digits or beside them adds one character for itself, one zero at most in front of
it, and the zeros that lie between it and the digits. -/
theorem length_chars_pointed_le (negative : Bool) (ds : List Digit) (point : Int) :
    (pointed negative ds point).chars.length ≤
      negative.toNat + ds.length + 2 + (-point).toNat + (point - ds.length).toNat := by
  rw [Spelling.length_chars, negative_pointed]
  unfold pointed
  split
  · simp only [Spelling.pointChars, List.length_cons, List.length_nil, Numeral.length_text,
      List.length_append, List.length_replicate]
    omega
  · split
    · simp only [Spelling.pointChars, List.length_nil, List.length_append, List.length_replicate]
      omega
    · simp only [Spelling.pointChars, List.length_cons, Numeral.length_text, List.length_take,
        List.length_drop]
      omega

/-- Where there is a digit, a point that is written has one behind it. -/
theorem places_pointed_ne (negative : Bool) {ds : List Digit} (hds : ds ≠ []) (point : Int) :
    (pointed negative ds point).places ≠ some [] := by
  unfold pointed
  split
  · simp [hds]
  · split
    · simp
    · next hlt => simpa using hlt

/-! ### Lengths of literals -/

namespace Exponent

theorem natAbs_value_le (e : Exponent) : e.value.natAbs ≤ 100000 := by
  have hle : Numeral.value e.digits ≤ 100000 := e.digits_le
  unfold value
  split <;> omega

/-- A mark and a digit at least are written for an exponent. -/
theorem two_le_length_chars (e : Exponent) : 2 ≤ e.chars.length := by
  have hdigits := List.length_pos_iff.mpr e.digits_ne_nil
  rw [chars, List.length_cons, List.length_append, Numeral.length_text]
  omega

end Exponent

namespace Literal

/-- Of the characters of a literal, some are those of its sign, its digits and its exponent. -/
theorem le_length_chars (n : Literal) :
    n.negative.toNat + (n.integer ++ n.fractionDigits).length +
      ((n.exponent.map Exponent.chars).getD []).length ≤ n.chars.length := by
  have hminus : (minusChars n.negative).length = n.negative.toNat := by
    cases n.negative <;> rfl
  have hfraction : n.fractionDigits.length ≤ (fractionChars n.fraction).length := by
    rw [fractionDigits]
    rcases n.fraction with _ | ds <;> simp [fractionChars]
  rw [chars]
  simp only [List.length_append, Numeral.length_text, hminus]
  omega

theorem digits_ne_nil (n : Literal) : n.integer ++ n.fractionDigits ≠ [] := by
  rw [Ne, List.append_eq_nil_iff, not_and_or]
  exact n.hasDigit

/-! ### The shape of the flat form -/

theorem negative_flatSpelling (n : Literal) : n.flatSpelling.negative = n.negative := by
  unfold flatSpelling
  split
  · rfl
  · exact negative_pointed _ _ _

/-- The flat form of a literal with an exponent. -/
theorem flatSpelling_of_exponent {n : Literal} {e : Exponent} (he : n.exponent = some e) :
    n.flatSpelling = (pointed n.negative (n.integer ++ n.fractionDigits)
      (n.integer.length + e.value)).trimmed := by
  rw [flatSpelling, exponentValue?, he, Option.map_some]

/-- No superfluous zero leads a flat form that replaces an exponent. -/
theorem isTrimmed_flatSpelling {n : Literal} (h : n.exponent ≠ none) :
    n.flatSpelling.IsTrimmed := by
  obtain ⟨e, he⟩ := Option.ne_none_iff_exists'.mp h
  rw [flatSpelling_of_exponent he]
  exact Spelling.isTrimmed_trimmed _

/-- No point is left bare in a flat form that replaces an exponent. -/
theorem places_flatSpelling_ne {n : Literal} (h : n.exponent ≠ none) :
    n.flatSpelling.places ≠ some [] := by
  obtain ⟨e, he⟩ := Option.ne_none_iff_exists'.mp h
  rw [flatSpelling_of_exponent he]
  exact places_pointed_ne n.negative n.digits_ne_nil _

/-- **The flat form is longer than the literal by at most the largest exponent.** -/
theorem length_flatChars_le (n : Literal) : n.flatChars.length ≤ n.chars.length + 100000 := by
  rcases he : n.exponent with _ | e
  · have hflat : n.flatChars = n.chars := by rw [flatChars, exponentValue?, he]; rfl
    rw [hflat]
    exact Nat.le_add_right _ _
  · have htrim := Spelling.length_chars_trimmed_le (whole_pointed_ne_nil n.negative
      (n.integer ++ n.fractionDigits) (n.integer.length + e.value))
    have hpointed := length_chars_pointed_le n.negative (n.integer ++ n.fractionDigits)
      (n.integer.length + e.value)
    have hchars := n.le_length_chars
    rw [he, Option.map_some, Option.getD_some] at hchars
    have hmark := e.two_le_length_chars
    have hvalue := e.natAbs_value_le
    rw [flatChars_eq, flatSpelling_of_exponent he]
    -- the point lies at most as far outside the digits as the exponent says
    simp only [List.length_append] at hpointed hchars
    omega

/-- **The flat form of a literal denotes its number**, which the digits and the exponent give.  It
has as many characters after its point as are counted, and the number is zero exactly when all
digits are.  A flat form that replaces an exponent has no superfluous zero in front and no bare
point.  None is longer than the text of the literal by more than the largest exponent. -/
theorem flat_denotes {text : String} {n : Literal} (h : parse? text = some n) :
    ∃ r : ℚ, r = signed n.negative (Numeral.horner (n.integer ++ n.fractionDigits) *
        10 ^ (n.exponentValue?.getD 0 - n.fractionDigits.length)) ∧
      toRat? n.flat = some r ∧
      (splitPoint n.flat.toList).2.length = n.fractionLength ∧
      (n.isZero = true ↔ r = 0) ∧
      (n.exponent ≠ none → ∃ s : Spelling, s.text = n.flat ∧ s.negative = n.negative ∧
        s.IsTrimmed ∧ s.places ≠ some []) ∧
      n.flat.length ≤ text.length + 100000 := by
  have hchars : n.flat.toList = n.flatSpelling.chars := by
    rw [flat, String.toList_ofList, flatChars_eq]
  refine ⟨n.value, n.value_eq, n.toRat?_flat, ?_, n.isZero_iff, fun he => ?_, ?_⟩
  · rw [hchars, splitPoint_chars, Numeral.length_text, length_placeDigits_flatSpelling]
  · refine ⟨n.flatSpelling, ?_, n.negative_flatSpelling, isTrimmed_flatSpelling he,
      places_flatSpelling_ne he⟩
    rw [flat, flatChars_eq, Spelling.text]
  · have hle := n.length_flatChars_le
    rw [parse?_eq_some_iff.mp h]
    simpa [flat, Literal.text] using hle

/-- The point moves out of the digits to the left. -/
theorem flat_denotes_hundredths : ∃ n, parse? "-07.05e-2" = some n ∧ n.flat = "-0.0705" ∧
    toRat? n.flat = some (-705 / 10000) ∧ (splitPoint n.flat.toList).2.length = 4 ∧
      n.isZero = false ∧ (∃ s : Spelling, s.text = n.flat ∧ s.negative = true ∧ s.IsTrimmed ∧
        s.places ≠ some []) ∧ n.flat.length ≤ "-07.05e-2".length + 100000 := by
  let n : Literal := ⟨true, [0, 7], some [0, 5], some ⟨false, some .minus, [2], by decide,
    by decide⟩, by decide⟩
  have hn : parse? "-07.05e-2" = some n := by decide
  have hvalue : signed n.negative (Numeral.horner (n.integer ++ n.fractionDigits) *
      10 ^ (n.exponentValue?.getD 0 - n.fractionDigits.length)) = -705 / 10000 := by
    decide +kernel
  obtain ⟨r, hr, hread, hlength, hzero, hshape, hbound⟩ := flat_denotes hn
  rw [hvalue] at hr
  subst hr
  refine ⟨n, hn, by decide, hread, hlength, ?_, hshape nofun, hbound⟩
  rw [Bool.eq_false_iff, Ne, hzero]
  norm_num

end Literal

end PostfixCalculator
