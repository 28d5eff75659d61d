import PostfixCalculator.Binary64.Arithmetic
import PostfixCalculator.Proofs.Binary64.Nearest
import PostfixCalculator.Proofs.Binary64.Text

/-!
# How far a number lies from what is rounded to it

A number read or computed lies within half a step of the exact number, where the step is that from
the magnitude of the rounded number to the next one.  A step is a unit or the last of 53 binary
places, so half a step is small beside the number.  All that is small enough is rounded to zero.
The text of a number lies within half a step of it, too, and is the literal that it was read from
where this has few places.

## Main definitions

* `halfUnit` — half of the least positive magnitude.
* `halfStep x` — half of the step from the magnitude of `x` to the next one.
* `IsRounded x q` — the number `x` is finite and within half a step of `q`.

## Main results

* `halfStep_le` — half a step is small beside the number.
* `isRounded_ofLiteral`, `exists_add`, `exists_sub`, `exists_mul` — **literals and results below
  `overflowBound` are rounded.**
* `IsRounded.value_eq`, `IsRounded.value_spelling_eq` — whole numbers that are not large are
  rounded to themselves, and written so.
* `isZero_ofLiteral_iff` — the literals that are read as zero.
* `abs_value_spelling_sub_le` — the text of a number lies within half a step of it.
* `abs_le_abs_value_spelling` — the text of a number does not pass below a short decimal.
* `value_spelling_ofLiteral` — a literal of few places is written as it is read.
-/

namespace PostfixCalculator.Binary64

open Decimal

-- Neither number is ever computed here.
attribute [local irreducible] unitsPerOne overflowUnits

/-- Half of the least positive magnitude, which is `2 ^ -1075`. -/
def halfUnit : ℚ := 1 / (2 * unitsPerOne)

/-- Half of the step from the magnitude of a number to the next one. -/
def halfStep (x : Binary64) : ℚ := stepAt x.rank / (2 * unitsPerOne)

/-- The number is finite and within half a step of `q`. -/
def IsRounded (x : Binary64) (q : ℚ) : Prop := x.isFinite = true ∧ |x.value - q| ≤ x.halfStep

/-! ### The value of a number -/

/-- A number denotes its units, with its sign. -/
theorem value_eq (x : Binary64) : x.value = signed x.negative (magnitudeAt x.rank) := by
  have hcast : (x.signedUnits : ℚ) = signed x.negative x.units := by
    rw [signedUnits]
    cases x.negative <;> simp
  rw [value, Rat.mkRat_eq_div, hcast, ← signed_div]
  rfl

theorem abs_value (x : Binary64) : |x.value| = magnitudeAt x.rank := by
  rw [value_eq, abs_signed, abs_of_nonneg (magnitudeAt_nonneg _)]

/-- A zero denotes zero. -/
theorem value_of_isZero {x : Binary64} (h : x.isZero = true) : x.value = 0 := by
  have hrank : x.rank = 0 := of_decide_eq_true h
  rw [value_eq, hrank, magnitudeAt_zero, signed_eq_zero]

theorem value_neg (x : Binary64) : x.neg.value = -x.value := by
  rw [value_eq, value_eq]
  exact signed_not x.negative _

/-- A sum of units is a sum of values. -/
theorem value_add_value (x y : Binary64) :
    x.value + y.value = ((x.signedUnits + y.signedUnits : ℤ) : ℚ) / unitsPerOne := by
  rw [value, value, Rat.mkRat_eq_div, Rat.mkRat_eq_div, Int.cast_add, add_div]

theorem halfStep_nonneg (x : Binary64) : 0 ≤ x.halfStep := by
  unfold halfStep
  positivity

theorem halfUnit_le_halfStep (x : Binary64) : halfUnit ≤ x.halfStep := by
  have hstep : (1 : ℚ) ≤ stepAt x.rank := by exact_mod_cast stepAt_pos x.rank
  exact div_le_div_of_nonneg_right hstep (mul_pos two_pos unitsPerOne_pos').le

/-- **Half a step is small beside the number.** -/
theorem halfStep_le (x : Binary64) : x.halfStep ≤ |x.value| / 2 ^ 53 + halfUnit := by
  have hone := unitsPerOne_pos'
  have hunits : (0 : ℚ) ≤ x.units := Nat.cast_nonneg _
  have hstep : (stepAt x.rank : ℚ) ≤ x.units / 2 ^ 52 + 1 := by
    rcases stepAt_cases x.rank with heq | hle
    · rw [heq, Nat.cast_one]
      linarith [div_nonneg hunits (by positivity : (0 : ℚ) ≤ 2 ^ 52)]
    · have hcast : (stepAt x.rank : ℚ) * 2 ^ 52 ≤ x.units := by exact_mod_cast hle
      have hdiv : (stepAt x.rank : ℚ) ≤ x.units / 2 ^ 52 := by
        rw [le_div_iff₀ (by positivity)]
        exact hcast
      linarith
  rw [abs_value, magnitudeAt, halfStep, halfUnit]
  calc (stepAt x.rank : ℚ) / (2 * unitsPerOne)
      ≤ (x.units / 2 ^ 52 + 1) / (2 * unitsPerOne) :=
        div_le_div_of_nonneg_right hstep (by positivity)
    _ = x.units / unitsPerOne / 2 ^ 53 + 1 / (2 * unitsPerOne) := by
        field_simp

/-! ### Rounded numbers -/

theorem rank_ofUnits {negative : Bool} {num den : Nat}
    (h : (ofUnits negative num den).isFinite = true) :
    (ofUnits negative num den).rank = roundRank num den := by
  have hlt : min (roundRank num den) infinityRank < infinityRank := of_decide_eq_true h
  exact min_eq_left (min_lt_iff.mp hlt |>.resolve_right (lt_irrefl _)).le

theorem negative_ofUnits (negative : Bool) (num den : Nat) :
    (ofUnits negative num den).negative = negative := rfl

/-- **A ratio of units below the middle below infinity is rounded.** -/
theorem isRounded_ofUnits (negative : Bool) {num den : Nat} (hden : 0 < den)
    (h : num < overflowUnits * den) :
    (ofUnits negative num den).IsRounded (signed negative (num / den / unitsPerOne)) := by
  have hfinite := isFinite_ofUnits negative hden h
  refine ⟨hfinite, ?_⟩
  rw [value_eq, negative_ofUnits, abs_signed_sub_signed, halfStep, rank_ofUnits hfinite]
  exact abs_magnitudeAt_roundRank_sub_le hden

/-- **A literal below the bound is rounded.** -/
theorem isRounded_ofLiteral {n : Literal} (h : |n.value| < overflowBound) :
    (ofLiteral n).IsRounded n.value := by
  have hden : 0 < n.magnitudeDen := Nat.pow_pos (by decide)
  rw [abs_value_eq_units] at h
  rw [n.value_eq_signed_abs, abs_value_eq_units]
  exact isRounded_ofUnits n.negative hden (lt_overflowUnits_mul hden h)

/-- **A sum below the bound is rounded.** -/
theorem exists_add {x y : Binary64} (hx : x.isFinite = true) (hy : y.isFinite = true)
    (h : |x.value + y.value| < overflowBound) :
    ∃ r, x.add y = some r ∧ r.IsRounded (x.value + y.value) := by
  rw [value_add_value] at h ⊢
  generalize hsum : x.signedUnits + y.signedUnits = sum at h ⊢
  by_cases hzero : sum = 0
  · refine ⟨zero (x.negative && y.negative), ?_, rfl, ?_⟩
    · simp only [add, hx, hy, hsum, hzero, Bool.and_self, ↓reduceIte]
    · rw [hzero, value_of_isZero rfl, Int.cast_zero, zero_div, sub_zero, abs_zero]
      exact halfStep_nonneg _
  · refine ⟨ofUnits (sum < 0) sum.natAbs 1, ?_, ?_⟩
    · simp only [add, hx, hy, hsum, hzero, Bool.and_self, ↓reduceIte]
    · have hvalue : (sum : ℚ) / unitsPerOne =
          signed (decide (sum < 0)) ((sum.natAbs : ℚ) / (1 : ℕ) / unitsPerOne) := by
        rw [Nat.cast_one, div_one, signed_div, signed_natAbs]
      rw [hvalue, abs_signed, abs_of_nonneg (by positivity)] at h
      rw [hvalue]
      exact isRounded_ofUnits _ Nat.one_pos (lt_overflowUnits_mul Nat.one_pos h)

/-- **A difference below the bound is rounded.** -/
theorem exists_sub {x y : Binary64} (hx : x.isFinite = true) (hy : y.isFinite = true)
    (h : |x.value - y.value| < overflowBound) :
    ∃ r, x.sub y = some r ∧ r.IsRounded (x.value - y.value) := by
  rw [sub_eq_add_neg, ← value_neg] at h ⊢
  exact exists_add hx hy h

/-- **A product below the bound is rounded.** -/
theorem exists_mul {x y : Binary64} (hx : x.isFinite = true) (hy : y.isFinite = true)
    (h : |x.value * y.value| < overflowBound) :
    ∃ r, x.mul y = some r ∧ r.IsRounded (x.value * y.value) := by
  have hvalue : x.value * y.value = signed (x.negative != y.negative)
      (((x.units * y.units : ℕ) : ℚ) / unitsPerOne / unitsPerOne) := by
    rw [value_eq, value_eq, signed_mul_signed, magnitudeAt, magnitudeAt, Nat.cast_mul,
      div_mul_div_comm, div_div]
    rfl
  rw [hvalue, abs_signed, abs_of_nonneg (by positivity)] at h
  refine ⟨ofUnits (x.negative != y.negative) (x.units * y.units) unitsPerOne, ?_, ?_⟩
  · simp only [mul, hx, hy, Bool.and_self, ↓reduceIte]
  · rw [hvalue]
    exact isRounded_ofUnits _ unitsPerOne_pos (lt_overflowUnits_mul unitsPerOne_pos h)

/-- Half a step is small beside what is rounded, too. -/
theorem IsRounded.halfStep_le {x : Binary64} {q : ℚ} (h : x.IsRounded q) (hq : |q| ≤ 2 ^ 50) :
    x.halfStep ≤ (|q| + 2) / 2 ^ 53 := by
  have hstep := x.halfStep_le
  have hvalue : |x.value| ≤ |q| + x.halfStep := by
    have htriangle := abs_sub_abs_le_abs_sub x.value q
    linarith [h.2]
  have hhalf : halfUnit ≤ 1 / 2 ^ 54 := by
    have hunits : (2 : ℚ) ^ 53 ≤ unitsPerOne := by exact_mod_cast two_pow_le_unitsPerOne
    rw [halfUnit, div_le_div_iff_of_pos_left one_pos (by positivity) (by positivity)]
    linarith
  linarith

/-! ### Whole numbers -/

/-- A finite number is a whole number of steps, where a step is not larger than one, and half a step
is the half of one of these. -/
theorem exists_value_eq_steps {x : Binary64} (h : stepAt x.rank ≤ unitsPerOne) :
    ∃ (steps : ℤ) (perOne : ℕ), 0 < perOne ∧ x.value = steps / perOne ∧
      x.halfStep = 1 / (2 * perOne) := by
  have hstep : (0 : ℚ) < stepAt x.rank := Nat.cast_pos.mpr (stepAt_pos x.rank)
  obtain ⟨steps, hsteps⟩ : (stepAt x.rank : ℤ) ∣ x.signedUnits := by
    have hunits : (stepAt x.rank : ℤ) ∣ x.units :=
      Int.natCast_dvd_natCast.mpr (stepAt_dvd_unitsAt _)
    rw [signedUnits]
    split
    · exact (dvd_neg (α := ℤ)).mpr hunits
    · exact hunits
  obtain ⟨perOne, hperOne⟩ := stepAt_dvd_unitsPerOne h
  refine ⟨steps, perOne, Nat.pos_of_ne_zero ?_, ?_, ?_⟩
  · rintro rfl
    exact unitsPerOne_pos.ne' hperOne
  · rw [value, Rat.mkRat_eq_div, hsteps, hperOne]
    push_cast
    exact mul_div_mul_left _ _ hstep.ne'
  · rw [halfStep, hperOne, Nat.cast_mul, mul_left_comm, ← div_div, div_self hstep.ne']

/-- Where the number is not large, a step is less than one. -/
theorem IsRounded.two_mul_halfStep_lt {x : Binary64} {q : ℚ} (h : x.IsRounded q)
    (hq : |q| ≤ 2 ^ 50) : 2 * x.halfStep < 1 := by
  have hstep := h.halfStep_le hq
  linarith

/-- **A whole number that is not large is rounded to itself**: it is a whole number of steps, and so
is the number that it is rounded to. -/
theorem IsRounded.value_eq {x : Binary64} {q : ℚ} (h : x.IsRounded q) (hwhole : HasPlaces q 0)
    (hq : |q| ≤ 2 ^ 50) : x.value = q := by
  have hsmall := h.two_mul_halfStep_lt hq
  have hone := unitsPerOne_pos'
  have hstep : stepAt x.rank ≤ unitsPerOne := by
    rw [halfStep, ← mul_div_assoc, mul_div_mul_left _ _ two_ne_zero, div_lt_one hone] at hsmall
    exact_mod_cast hsmall.le
  obtain ⟨steps, perOne, hpos, hvalue, hhalf⟩ := exists_value_eq_steps hstep
  have hposQ : (0 : ℚ) < perOne := Nat.cast_pos.mpr hpos
  obtain ⟨z, hz⟩ := hwhole
  rw [pow_zero, mul_one] at hz
  have herror := h.2
  -- both are counted in steps, and they differ by half of one at most
  rw [hvalue, hhalf, hz, div_sub' hposQ.ne', abs_div, abs_of_pos hposQ,
    div_le_div_iff₀ hposQ (by positivity), ← mul_assoc] at herror
  have hhalfStep : |steps - perOne * z| * 2 ≤ 1 := by
    exact_mod_cast le_of_mul_le_mul_right herror hposQ
  have hsteps : steps = perOne * z := by
    refine sub_eq_zero.mp (abs_eq_zero.mp ?_)
    have hnonneg := abs_nonneg (steps - perOne * z)
    omega
  rw [hvalue, hz, hsteps]
  push_cast
  exact mul_div_cancel_left₀ _ hposQ.ne'

/-! ### Rounding to zero -/

/-- **The literals that are read as zero are those that do not exceed half a unit.** -/
theorem isZero_ofLiteral_iff (n : Literal) :
    (ofLiteral n).isZero = true ↔ |n.value| ≤ halfUnit := by
  have hden : 0 < n.magnitudeDen := Nat.pow_pos (by decide)
  have hdenQ : (0 : ℚ) < n.magnitudeDen := Nat.cast_pos.mpr hden
  have hone := unitsPerOne_pos'
  have hrank : (ofLiteral n).isZero = true ↔
      roundRank (n.magnitudeNum * unitsPerOne) n.magnitudeDen = 0 := by
    have hinfinity : infinityRank ≠ 0 := by decide
    show decide (min _ infinityRank = 0) = true ↔ _
    rw [decide_eq_true_iff, Nat.min_eq_zero_iff, or_iff_left hinfinity]
  rw [hrank, roundRank_eq_zero_iff hden, n.abs_value, halfUnit,
    div_le_div_iff₀ hdenQ (by positivity), one_mul, mul_left_comm]
  exact_mod_cast Iff.rfl

/-! ### The text of a number -/

/-- **The text of a number lies within half a step of it.** -/
theorem abs_value_spelling_sub_le {x : Binary64} (h : x.isFinite = true) :
    |x.spelling.value - x.value| ≤ x.halfStep := by
  rw [value_spelling, value_eq, abs_signed_sub_signed, decimal]
  by_cases hrank : x.rank = 0
  · rw [if_pos hrank, hrank, magnitudeAt_zero, Nat.cast_zero, zero_mul, sub_zero, abs_zero]
    exact x.halfStep_nonneg
  · rw [if_neg hrank]
    exact (readsBack_iff.mp (readsBack_shortest hrank (of_decide_eq_true h))).abs_sub_le hrank

/-- **A short decimal that does not exceed a number does not exceed its text either**: it would lie
between the two otherwise, and be the shorter text. -/
theorem abs_le_abs_value_spelling {x : Binary64} (h : x.isFinite = true) {q : ℚ} {k : Nat}
    (hplaces : HasPlaces q k) (hstep : 2 * x.halfStep < 1 / 10 ^ k) (hq : |q| ≤ |x.value|) :
    |q| ≤ |x.spelling.value| := by
  by_cases hrank : x.rank = 0
  · rw [value_of_isZero (decide_eq_true hrank), abs_zero] at hq
    exact hq.trans (abs_nonneg _)
  · by_contra hlt
    rw [abs_value] at hq
    rw [not_le, abs_value_spelling, decimal, if_neg hrank] at hlt
    have htext := readsBack_iff.mp (readsBack_shortest hrank (of_decide_eq_true h))
    have hcovers := htext.between (covers_magnitudeAt hrank) hlt.le hq
    exact hlt.ne (shortest_eq_of_covers hrank (of_decide_eq_true h) hcovers (abs_nonneg _)
      hplaces.abs hstep)

/-- A literal is in the interval of the magnitude that it is read as. -/
theorem covers_ofLiteral {n : Literal} (h : (ofLiteral n).isFinite = true)
    (hrank : (ofLiteral n).rank ≠ 0) : Covers (ofLiteral n).rank |n.value| := by
  have hround : (ofLiteral n).rank = roundRank (n.magnitudeNum * unitsPerOne) n.magnitudeDen :=
    rank_ofUnits h
  rw [hround] at hrank ⊢
  rw [abs_value_eq_units]
  exact covers_roundRank (Nat.pow_pos (by decide)) hrank

/-- **A literal of few places is written as it is read**: where a step is less than a unit of the
last place, the shortest decimal of the number read is the literal's own. -/
theorem value_spelling_ofLiteral {n : Literal} {k : Nat} (h : (ofLiteral n).isFinite = true)
    (hplaces : HasPlaces n.value k) (hstep : 2 * (ofLiteral n).halfStep < 1 / 10 ^ k) :
    (ofLiteral n).spelling.value = n.value := by
  have hspelling := value_spelling (ofLiteral n)
  by_cases hrank : (ofLiteral n).rank = 0
  · -- a literal that is read as zero is smaller than a unit of its last place
    have hsmall : |n.value| ≤ (ofLiteral n).halfStep :=
      ((isZero_ofLiteral_iff n).mp (decide_eq_true hrank)).trans (ofLiteral n).halfUnit_le_halfStep
    have hzero : n.value = 0 := by
      refine hplaces.eq_of_abs_sub_lt ⟨0, by rw [zero_mul, Int.cast_zero]⟩ ?_
      rw [sub_zero]
      linarith [abs_nonneg n.value]
    rw [hspelling, decimal, if_pos hrank, Nat.cast_zero, zero_mul, signed_eq_zero.mpr rfl, hzero]
  · have hcovers := covers_ofLiteral h hrank
    have hshortest := shortest_eq_of_covers hrank (of_decide_eq_true h) hcovers (abs_nonneg _)
      hplaces.abs hstep
    rw [hspelling, decimal, if_neg hrank, hshortest]
    exact n.value_eq_signed_abs.symm

/-- **A number that a whole number is rounded to is written as that whole number.** -/
theorem IsRounded.value_spelling_eq {x : Binary64} {q : ℚ} (h : x.IsRounded q)
    (hwhole : HasPlaces q 0) (hq : |q| ≤ 2 ^ 50) : x.spelling.value = q := by
  have hvalue := h.value_eq hwhole hq
  rw [value_spelling, decimal]
  by_cases hrank : x.rank = 0
  · rw [if_pos hrank, Nat.cast_zero, zero_mul, signed_eq_zero.mpr rfl, ← hvalue,
      value_of_isZero (decide_eq_true hrank)]
  · have hplaces : HasPlaces (magnitudeAt x.rank) 0 := by
      rw [← abs_value, hvalue]
      exact hwhole.abs
    have hstep : 2 * x.halfStep < 1 / 10 ^ 0 := by
      rw [pow_zero, div_one]
      exact h.two_mul_halfStep_lt hq
    rw [if_neg hrank, shortest_eq_of_covers hrank (of_decide_eq_true h.1) (covers_magnitudeAt hrank)
      (magnitudeAt_nonneg _) hplaces hstep, ← Binary64.value_eq, hvalue]

end PostfixCalculator.Binary64
