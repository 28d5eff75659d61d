import PostfixCalculator.Literal.Lemmas
import PostfixCalculator.Literal.Value
import PostfixCalculator.Proofs.Decimal.Rendering

/-!
# The flat form of a literal

The flat form of a literal is a spelling of its value: the digits of the literal with the point put
where the exponent says.  So a literal has as many places as its flat form, and reading the flat
form gives the number that the literal denotes.  The other way round, every spelling with a digit
is a literal.

## Main definitions

* `pointed negative ds point` — the digits `ds` with a point after the first `point` of them.
* `Decimal.Spelling.trimmed` — a spelling without superfluous zeros at its beginning.
* `Literal.flatSpelling` — the flat form, on the pieces.
* `Denotes text r` — the text is a literal of the number `r`.

## Main results

* `Literal.value_eq` — a literal denotes its digits, times a power of ten, with its sign.
* `Literal.toRat?_flat` — the flat form is read as the value of the literal.
* `Literal.hasPlaces_value` — the value has as many places as the flat form.
* `Literal.isZero_iff` — a literal denotes zero exactly when all its digits are zero.
* `Decimal.Spelling.parse?_text` — a spelling with a digit is a literal of the same value.
-/

namespace PostfixCalculator

open Decimal

/-! ### Powers of ten -/

/-- A power of ten of either sign is a quotient of two, one of which is one. -/
theorem ten_zpow_eq_div (z : Int) : (10 : ℚ) ^ z = 10 ^ z.toNat / 10 ^ (-z).toNat := by
  rcases le_total 0 z with hz | hz
  · have hneg : (-z).toNat = 0 := by omega
    rw [hneg, pow_zero, div_one, ← zpow_natCast, Int.toNat_of_nonneg hz]
  · have hpos : z.toNat = 0 := by omega
    rw [hpos, pow_zero, one_div, ← zpow_natCast, Int.toNat_of_nonneg (by omega), zpow_neg, inv_inv]

namespace Literal

/-- **A literal denotes its digits, times a power of ten, with its sign.** -/
theorem value_eq (n : Literal) :
    n.value =
      signed n.negative (Numeral.horner (n.integer ++ n.fractionDigits) * 10 ^ n.scale) := by
  have hcoefficient : (n.coefficient : ℚ) = Numeral.horner (n.integer ++ n.fractionDigits) := by
    rw [coefficient, Numeral.value_eq_horner]
  rw [value, magnitudeDen, mkRat_signed, magnitudeNum, ten_zpow_eq_div, ← hcoefficient,
    ← mul_div_assoc]
  push_cast
  rfl

/-- A literal denotes zero exactly when all its digits are zero. -/
theorem isZero_iff (n : Literal) : n.isZero = true ↔ n.value = 0 := by
  have hpow : (10 : ℚ) ^ n.scale ≠ 0 := by positivity
  rw [value_eq, signed_eq_zero, mul_eq_zero, or_iff_left hpow, Nat.cast_eq_zero,
    Numeral.horner_eq_zero_iff, isZero]
  simp [or_imp, forall_and]

end Literal

/-! ### A point among digits -/

/-- The spelling with the digits `ds` and a point after the first `point` of them, filled up with
zeros where the point lies outside. -/
def pointed (negative : Bool) (ds : List Digit) (point : Int) : Spelling :=
  if point ≤ 0 then ⟨negative, [.zero], some (List.replicate (-point).toNat .zero ++ ds)⟩
  else if ds.length ≤ point.toNat then
    ⟨negative, ds ++ List.replicate (point.toNat - ds.length) .zero, none⟩
  else ⟨negative, ds.take point.toNat, some (ds.drop point.toNat)⟩

theorem negative_pointed (negative : Bool) (ds : List Digit) (point : Int) :
    (pointed negative ds point).negative = negative := by
  unfold pointed
  split
  · rfl
  · split <;> rfl

theorem whole_pointed_ne_nil (negative : Bool) (ds : List Digit) (point : Int) :
    (pointed negative ds point).whole ≠ [] := by
  unfold pointed
  split
  · simp
  next hpoint =>
  rw [← List.length_pos_iff]
  split
  · simp only [List.length_append, List.length_replicate]
    omega
  · simp only [List.length_take]
    omega

theorem length_placeDigits_pointed (negative : Bool) (ds : List Digit) (point : Int) :
    (pointed negative ds point).placeDigits.length = ((ds.length : Int) - point).toNat := by
  unfold pointed Spelling.placeDigits
  split
  · simp only [Option.getD_some, List.length_append, List.length_replicate]
    omega
  · split
    · simp only [Option.getD_none, List.length_nil]
      omega
    · simp only [Option.getD_some, List.length_drop]
      omega

/-- The digits of a pointed spelling are those given, with zeros at one end. -/
theorem horner_pointed (negative : Bool) (ds : List Digit) (point : Int) :
    Numeral.horner ((pointed negative ds point).whole ++ (pointed negative ds point).placeDigits) =
      Numeral.horner ds * 10 ^ (point - ds.length).toNat := by
  unfold pointed Spelling.placeDigits
  split
  · have hexp : (point - ds.length).toNat = 0 := by omega
    rw [Option.getD_some, hexp, pow_zero, mul_one, List.singleton_append, ← List.cons_append,
      ← List.replicate_succ, Numeral.horner_zeros_append]
  · split
    · have hexp : (point - ds.length).toNat = point.toNat - ds.length := by omega
      rw [Option.getD_none, List.append_nil, Numeral.horner_append_zeros, hexp]
    · have hexp : (point - ds.length).toNat = 0 := by omega
      rw [Option.getD_some, List.take_append_drop, hexp, pow_zero, mul_one]

/-- **A pointed spelling denotes its digits, times a power of ten, with its sign.** -/
theorem value_pointed (negative : Bool) (ds : List Digit) (point : Int) :
    (pointed negative ds point).value =
      signed negative (Numeral.horner ds * 10 ^ (point - ds.length)) := by
  -- the zeros in front and those at the end are the two parts of the power of ten
  have hneg : (-(point - ds.length)).toNat = ((ds.length : Int) - point).toNat := by
    rw [neg_sub]
  rw [Spelling.value_eq, Spelling.magnitude, horner_pointed, length_placeDigits_pointed,
    negative_pointed, ten_zpow_eq_div, hneg, ← mul_div_assoc]
  push_cast
  rfl

theorem text_replicate_zero (k : Nat) :
    Numeral.text (List.replicate k 0) = List.replicate k '0' := List.map_replicate

/-- Placing the point in a text gives the text of a pointed spelling. -/
theorem placePoint_text (negative : Bool) (ds : List Digit) (point : Int) :
    Literal.placePoint (Numeral.text ds) point =
      Numeral.text (pointed negative ds point).whole ++
        Spelling.pointChars (pointed negative ds point).places := by
  unfold Literal.placePoint pointed
  rw [Numeral.length_text]
  split
  · rw [Spelling.pointChars, text_append, text_replicate_zero]
    rfl
  · split
    · rw [Spelling.pointChars, text_append, text_replicate_zero, List.append_nil]
    · simp [Numeral.text, Spelling.pointChars]

/-! ### Trimming a spelling -/

namespace Decimal

/-- The spelling without superfluous zeros at its beginning. -/
def Spelling.trimmed (s : Spelling) : Spelling := { s with whole := Numeral.trim s.whole }

theorem Spelling.isTrimmed_trimmed (s : Spelling) : s.trimmed.IsTrimmed := Numeral.isTrimmed_trim _

theorem Spelling.value_trimmed (s : Spelling) : s.trimmed.value = s.value := by
  rw [value_eq, value_eq, magnitude, magnitude, Numeral.horner_append, Numeral.horner_append,
    trimmed, Numeral.horner_trim]
  rfl

end Decimal

/-- Stripping a text of its leading zeros trims its whole part. -/
theorem stripLeadingZeros_append (whole : List Digit) (places : Option (List Digit)) :
    Literal.stripLeadingZeros (Numeral.text whole ++ Spelling.pointChars places) =
      Numeral.text (Numeral.trim whole) ++ Spelling.pointChars places := by
  unfold Literal.stripLeadingZeros Numeral.trim
  rw [List.dropWhile_append, dropWhile_zero_text]
  generalize whole.dropWhile (· = 0) = kept
  rcases kept with _ | ⟨d, es⟩
  · rcases places with _ | ds <;> simp [Numeral.text, Spelling.pointChars, Digit.toChar]
  · -- the first character kept is a digit, not the point
    have hd : Digit.toChar d ≠ '.' := toChar_ne rfl d
    simp only [Numeral.text, List.map_cons, List.isEmpty_cons, Bool.false_eq_true, ↓reduceIte,
      List.cons_append]
    split
    · next h => cases h
    · next h => exact absurd (List.cons.inj h).1 hd
    · rfl

/-! ### The flat form -/

namespace Literal

/-- The flat form of a literal, on the pieces. -/
def flatSpelling (n : Literal) : Spelling :=
  match n.exponentValue? with
  | none => ⟨n.negative, n.integer, n.fraction⟩
  | some e => (pointed n.negative (n.integer ++ n.fractionDigits) (n.integer.length + e)).trimmed

/-- The characters after the sign of a literal without an exponent. -/
theorem fractionChars_eq (fraction : Option (List Digit)) :
    fractionChars fraction = Spelling.pointChars fraction := by
  cases fraction <;> rfl

theorem exponent_eq_none {n : Literal} (h : n.exponentValue? = none) : n.exponent = none :=
  Option.map_eq_none_iff.mp h

theorem flatChars_eq (n : Literal) : n.flatChars = n.flatSpelling.chars := by
  unfold flatChars flatSpelling
  rcases he : n.exponentValue? with _ | e
  · dsimp only
    rw [Spelling.chars_eq, chars, exponent_eq_none he, fractionChars_eq]
    simp [minusChars]
  · dsimp only
    rw [Spelling.chars_eq, Spelling.trimmed, negative_pointed,
      placePoint_text n.negative (n.integer ++ n.fractionDigits), stripLeadingZeros_append]
    rfl

theorem hasDigit_flatSpelling (n : Literal) : n.flatSpelling.HasDigit := by
  unfold flatSpelling
  rcases n.exponentValue? with _ | e
  · exact n.hasDigit
  · exact (Spelling.isTrimmed_trimmed _).hasDigit

theorem value_flatSpelling (n : Literal) : n.flatSpelling.value = n.value := by
  rw [value_eq]
  unfold flatSpelling scale
  rcases n.exponentValue? with _ | e
  · rw [Spelling.value_eq, Spelling.magnitude, Option.getD_none, zero_sub, zpow_neg, zpow_natCast]
    rfl
  · have hscale : (n.integer.length : Int) + e - (n.integer ++ n.fractionDigits).length =
        e - n.fractionDigits.length := by
      rw [List.length_append]
      omega
    dsimp only
    rw [Spelling.value_trimmed, value_pointed, hscale, Option.getD_some]

theorem length_placeDigits_flatSpelling (n : Literal) :
    n.flatSpelling.placeDigits.length = n.fractionLength := by
  unfold flatSpelling fractionLength
  rcases n.exponentValue? with _ | e
  · rfl
  · show (pointed _ _ _).placeDigits.length = _
    rw [length_placeDigits_pointed, List.length_append]
    dsimp only
    omega

/-- **The flat form is read as the value of the literal.** -/
theorem toRat?_flat (n : Literal) : toRat? n.flat = some n.value := by
  have htext : n.flat = n.flatSpelling.text := by rw [flat, flatChars_eq, Spelling.text]
  rw [htext, toRat?_text n.hasDigit_flatSpelling, value_flatSpelling]

/-- The value of a literal has as many places as its flat form. -/
theorem hasPlaces_value (n : Literal) : HasPlaces n.value n.fractionLength := by
  have h := n.flatSpelling.hasPlaces_value
  rwa [value_flatSpelling, length_placeDigits_flatSpelling] at h

end Literal

/-! ### Spellings are literals -/

namespace Decimal

/-- A spelling with a digit, as a literal without an exponent. -/
def Spelling.toLiteral (s : Spelling) (h : s.HasDigit) : Literal :=
  ⟨s.negative, s.whole, s.places, none, h⟩

/-- A spelling with a digit is a literal. -/
theorem Spelling.parse?_text {s : Spelling} (h : s.HasDigit) :
    Literal.parse? s.text = some (s.toLiteral h) := by
  rw [Literal.parse?_eq_some_iff, Spelling.text, Literal.text, Spelling.chars_eq, Literal.chars,
    Literal.fractionChars_eq]
  simp only [Spelling.toLiteral, Option.map_none, Option.getD_none, List.append_nil,
    List.append_assoc]
  rfl

theorem Spelling.value_toLiteral {s : Spelling} (h : s.HasDigit) :
    (s.toLiteral h).value = s.value :=
  (s.toLiteral h).value_flatSpelling.symm

end Decimal

/-- The text is a literal of the number `r`. -/
def Denotes (text : String) (r : ℚ) : Prop := ∃ n, Literal.parse? text = some n ∧ n.value = r

theorem Decimal.Spelling.denotes_text {s : Spelling} (h : s.HasDigit) : Denotes s.text s.value :=
  ⟨s.toLiteral h, Spelling.parse?_text h, Spelling.value_toLiteral h⟩

/-- A canonical text is a literal. -/
theorem Decimal.IsCanonicalText.denotes {text : String} {r : ℚ} (h : IsCanonicalText text r) :
    Denotes text r := by
  obtain ⟨s, hs, rfl, rfl⟩ := h
  exact Spelling.denotes_text hs.1.hasDigit

end PostfixCalculator
