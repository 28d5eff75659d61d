import PostfixCalculator.Proofs.Decimal.Rendering

/-!
# Writing a number and reading it again

What is written for a scaled whole number is read as that number over its power of ten, so different
whole numbers have different texts.  What is written for a rational number is read as the number cut
to its places: on the side of zero, less than one unit of the last place away, and the number itself
exactly when that has no further places.

## Main results

* `toRat?_ofScaled` — a written whole number is read as that number over its power of ten.
* `toRat?_ofRat` — a written rational number is read as the cut one.
* `sign_cut`, `abs_lt_abs_cut_add`, `cut_eq_iff` — what a cut keeps of a number.
* `cut_eq_or_abs_lt` — a number close to one of few places loses a unit of the last place or none.
* `toRat?_inverse` — **reading is inverse to writing up to a cut**, and only decimal texts are
  read.
-/

namespace PostfixCalculator.Decimal

/-! ### Whole numbers -/

/-- A scaled whole number is written with as many places as are asked for, and without a point where
there are none. -/
theorem length_places_scaledSpelling (s : ℤ) (places : Nat) :
    (scaledSpelling s places).places.map List.length =
      if places = 0 then none else some places := by
  have hlength := length_placeDigits_scaledSpelling s places
  unfold scaledSpelling Spelling.placeDigits at *
  by_cases hp : places = 0
  · simp [hp]
  · simpa [hp] using hlength

/-- **A written whole number is read as that number over its power of ten.** -/
theorem toRat?_ofScaled (s : ℤ) (places : Nat) :
    toRat? (ofScaled s places) = some ((s : ℚ) / 10 ^ places) := by
  rw [← text_scaledSpelling, toRat?_text (isTrimmed_scaledSpelling s places).hasDigit,
    value_scaledSpelling]

/-- Different whole numbers are written differently. -/
theorem ofScaled_injective (places : Nat) : Function.Injective fun s : ℤ => ofScaled s places := by
  intro s t h
  have hread := congrArg toRat? h
  have hpow : (10 : ℚ) ^ places ≠ 0 := by positivity
  rw [toRat?_ofScaled, toRat?_ofScaled, Option.some.injEq, div_left_inj' hpow] at hread
  exact_mod_cast hread

/-! ### Rational numbers -/

/-- **A written rational number is read as the number cut to its places.** -/
theorem toRat?_ofRat (r : ℚ) (places : Nat) : toRat? (ofRat r places) = some (cut r places) := by
  rw [cut_eq_scaled]
  exact toRat?_ofScaled (scaled r places) places

/-- A number that is not cut to zero keeps its sign. -/
theorem sign_cut (r : ℚ) (places : Nat) :
    cut r places = 0 ∨ SignType.sign (cut r places) = SignType.sign r := by
  -- turning the sign turns both sides
  wlog hr : 0 ≤ r generalizing r
  · have h := this (-r) (by linarith)
    rwa [cut_neg, neg_eq_zero, Left.sign_neg, Left.sign_neg, neg_inj] at h
  rcases (cut_nonneg hr places).eq_or_lt with hzero | hpos
  · exact .inl hzero.symm
  · have hle := abs_cut_le r places
    rw [abs_of_pos hpos, abs_of_nonneg hr] at hle
    exact .inr (by rw [sign_pos hpos, sign_pos (hpos.trans_le hle)])

/-- A number is less than one unit of the last place further from zero than the cut one. -/
theorem abs_lt_abs_cut_add (r : ℚ) (places : Nat) : |r| < |cut r places| + 1 / 10 ^ places := by
  have hsub := abs_cut_sub_lt r places
  have htriangle := abs_sub_abs_le_abs_sub r (cut r places)
  rw [abs_sub_comm] at hsub
  linarith

/-- **A number close to one of few places is cut to that one, or loses a whole unit of the last
place**, however little it lacks; it lies nearer to zero then. -/
theorem cut_eq_or_abs_lt {q r : ℚ} {k : Nat} (hq : HasPlaces q k) (h : |r - q| < 1 / 10 ^ k) :
    cut r k = q ∨ |cut r k - q| = 1 / 10 ^ k ∧ |cut r k| < |q| ∧ |r| < |q| := by
  have hplaces := hasPlaces_cut r k
  have hle := abs_cut_le r k
  -- both are on one grid, less than two units apart
  have hgrid : |cut r k - q| ≤ (1 : ℕ) / 10 ^ k := by
    refine hplaces.abs_sub_le hq ?_
    rw [Nat.cast_one, add_div]
    linarith [abs_cut_sub_lt r k, abs_sub_le (cut r k) r q]
  rw [Nat.cast_one] at hgrid
  rcases lt_or_ge |r| |q| with hlt | hge
  · refine .inr ⟨hgrid.antisymm ?_, hle.trans_lt hlt, hlt⟩
    by_contra hless
    have heq := hplaces.eq_of_abs_sub_lt hq (not_le.mp hless)
    exact (hle.trans_lt hlt).ne (congrArg abs heq)
  · have habs : |cut r k| = |q| := by
      refine hplaces.abs.eq_of_abs_sub_lt hq.abs (abs_sub_lt_iff.mpr ⟨?_, ?_⟩)
      · linarith [abs_sub_abs_le_abs_sub r q]
      · linarith [abs_lt_abs_cut_add r k]
    rcases abs_eq_abs.mp habs with heq | hneg
    · exact .inl heq
    · -- only zero is a unit at most from its own negative
      have hzero : q = 0 := by
        refine hq.eq_of_abs_sub_lt ⟨0, by rw [zero_mul, Int.cast_zero]⟩ ?_
        rw [hneg, neg_sub_left, abs_neg, ← two_mul, abs_mul, abs_two] at hgrid
        have hunit : (0 : ℚ) < 1 / 10 ^ k := by positivity
        rw [sub_zero]
        linarith [abs_nonneg q]
      exact .inl (by rw [hneg, hzero, neg_zero])

/-- A cut changes a number exactly when that has further places. -/
theorem cut_eq_iff {r : ℚ} {places : Nat} : cut r places = r ↔ HasPlaces r places := by
  constructor
  · intro h
    rw [← h]
    exact hasPlaces_cut r places
  · exact HasPlaces.cut_eq

/-- **Reading is inverse to writing up to a cut.**  A scaled whole number is written with a minus
sign where it is negative, without superfluous zeros in front and with just the places asked for; it
is read as what it stands for, so no two whole numbers share a text.  Of a rational number the whole
part of the scaled one is written, the further places being dropped for either sign.  It is read as
a number of the same sign, or zero, that is no further from zero and less than one unit of the last
place nearer to it; that is the number itself exactly when it has no further places.  The texts that
are read are the decimal ones. -/
theorem toRat?_inverse :
    (∀ places : Nat,
      (∀ s : ℤ, (∃ p : Spelling, p.text = ofScaled s places ∧ (p.negative = true ↔ s < 0) ∧
          p.IsTrimmed ∧ p.places.map List.length = if places = 0 then none else some places) ∧
        toRat? (ofScaled s places) = some ((s : ℚ) / 10 ^ places)) ∧
      (Function.Injective fun s : ℤ => ofScaled s places) ∧
      ∀ r : ℚ, scaled r places = (if r * 10 ^ places < 0 then (r * 10 ^ places).ceil
          else (r * 10 ^ places).floor) ∧
        ∃ q, toRat? (ofRat r places) = some q ∧ (q = 0 ∨ SignType.sign q = SignType.sign r) ∧
          |q| ≤ |r| ∧ |r| < |q| + 1 / 10 ^ places ∧ (q = r ↔ ∃ z : ℤ, r * 10 ^ places = z)) ∧
    ∀ text, (toRat? text).isSome = true ↔ IsDecimal text := by
  refine ⟨fun places => ⟨fun s => ?_, ofScaled_injective places, fun r => ?_⟩,
    fun text => isSome_toRat?_iff⟩
  · exact ⟨⟨scaledSpelling s places, text_scaledSpelling s places, decide_eq_true_iff,
      isTrimmed_scaledSpelling s places, length_places_scaledSpelling s places⟩,
      toRat?_ofScaled s places⟩
  · exact ⟨scaled_eq r places, cut r places, toRat?_ofRat r places, sign_cut r places,
      abs_cut_le r places, abs_lt_abs_cut_add r places, cut_eq_iff⟩

end PostfixCalculator.Decimal
