import Mathlib
import PostfixCalculator.Binary64.Basic

/-!
# Where rounding leaves the finite numbers

The magnitudes grow with their ranks.  From one to the next there is a step, which is a power of two
units: one unit at the beginning of the row, and otherwise the last binary place of the magnitude.

A ratio is rounded to a finite magnitude as long as it lies below the middle between the largest
finite magnitude and the one that infinity stands for; the middle itself is already rounded to
infinity, whose rank is even.

## Main definitions

* `stepAt rank` — the step from a magnitude to the next one, in units.
* `overflowUnits` — that middle, in units.

## Main results

* `unitsAt_succ` — the next magnitude is one step away.
* `unitsAt_strictMono` — magnitudes grow with their ranks.
* `unitsAt_add_unitsAt_succ_le` — the middle above a finite magnitude does not exceed
  `overflowUnits`, and reaches it above the largest one only.
* `roundRank_lt_infinityRank` — what lies below `overflowUnits` has a finite rank.
-/

namespace PostfixCalculator.Binary64

theorem unitsPerOne_pos : 0 < unitsPerOne := Nat.two_pow_pos _

theorem unitsPerOne_pos' : (0 : ℚ) < unitsPerOne := Nat.cast_pos.mpr unitsPerOne_pos

theorem two_pow_le_unitsPerOne : 2 ^ 53 ≤ unitsPerOne := by decide +kernel

/-! ### The row of magnitudes -/

theorem unitsAt_of_lt {rank : Nat} (h : rank < 2 ^ 52) : unitsAt rank = rank := if_pos h

/-- Past the first `2 ^ 52` ranks, each power of two begins a row of `2 ^ 52` equal steps. -/
theorem unitsAt_row (row : Nat) {step : Nat} (h : step < 2 ^ 52) :
    unitsAt ((row + 1) * 2 ^ 52 + step) = (2 ^ 52 + step) * 2 ^ row := by
  have hmod : ((row + 1) * 2 ^ 52 + step) % 2 ^ 52 = step := by omega
  have hdiv : ((row + 1) * 2 ^ 52 + step) / 2 ^ 52 = row + 1 := by omega
  have hge : ¬(row + 1) * 2 ^ 52 + step < 2 ^ 52 := by omega
  unfold unitsAt
  rw [if_neg hge, hmod, hdiv, Nat.add_sub_cancel]

/-- The step from the magnitude of a rank to the next one, in units. -/
def stepAt (rank : Nat) : Nat := 2 ^ ((unitsAt rank).log2 - 52)

theorem stepAt_pos (rank : Nat) : 0 < stepAt rank := Nat.two_pow_pos _

theorem stepAt_of_lt {rank : Nat} (h : rank < 2 ^ 52) : stepAt rank = 1 := by
  have hlog : rank.log2 - 52 = 0 := by
    by_cases hzero : rank = 0
    · rw [hzero, Nat.log2_zero]
    · have := (Nat.log2_lt hzero).mpr h
      omega
  rw [stepAt, unitsAt_of_lt h, hlog, pow_zero]

theorem stepAt_row (row : Nat) {step : Nat} (h : step < 2 ^ 52) :
    stepAt ((row + 1) * 2 ^ 52 + step) = 2 ^ row := by
  have hlog : (unitsAt ((row + 1) * 2 ^ 52 + step)).log2 = 52 + row := by
    rw [unitsAt_row row h, Nat.log2_eq_iff (by positivity), add_right_comm, pow_add, pow_add]
    constructor
    · exact Nat.mul_le_mul_right _ (by omega)
    · exact Nat.mul_lt_mul_of_pos_right (by omega) (Nat.two_pow_pos row)
  rw [stepAt, hlog, Nat.add_sub_cancel_left]

/-- A rank is among the first `2 ^ 52` or has a place in a row of equal steps. -/
theorem rank_cases (rank : Nat) :
    rank < 2 ^ 52 ∨ ∃ row step, step < 2 ^ 52 ∧ rank = (row + 1) * 2 ^ 52 + step := by
  by_cases h : rank < 2 ^ 52
  · exact .inl h
  · exact .inr ⟨rank / 2 ^ 52 - 1, rank % 2 ^ 52, by omega, by omega⟩

/-- **The next magnitude is one step away.** -/
theorem unitsAt_succ (rank : Nat) : unitsAt (rank + 1) = unitsAt rank + stepAt rank := by
  rcases rank_cases rank with hrank | ⟨row, step, hstep, rfl⟩
  · rw [unitsAt_of_lt hrank, stepAt_of_lt hrank]
    by_cases hnext : rank + 1 < 2 ^ 52
    · exact unitsAt_of_lt hnext
    · have hlast : rank + 1 = (0 + 1) * 2 ^ 52 + 0 := by omega
      rw [hlast, unitsAt_row 0 (by decide)]
      omega
  · rw [unitsAt_row row hstep, stepAt_row row hstep]
    by_cases hnext : step + 1 < 2 ^ 52
    · rw [Nat.add_assoc, unitsAt_row row hnext]
      ring
    · have hlast : (row + 1) * 2 ^ 52 + step + 1 = (row + 1 + 1) * 2 ^ 52 + 0 := by omega
      have htop : step = 2 ^ 52 - 1 := by omega
      rw [hlast, unitsAt_row (row + 1) (by decide), htop, pow_succ]
      omega

/-- A step is a unit or the last binary place of the magnitude. -/
theorem stepAt_cases (rank : Nat) : stepAt rank = 1 ∨ stepAt rank * 2 ^ 52 ≤ unitsAt rank := by
  rcases rank_cases rank with hrank | ⟨row, step, hstep, rfl⟩
  · exact .inl (stepAt_of_lt hrank)
  · refine .inr ?_
    rw [stepAt_row row hstep, unitsAt_row row hstep, mul_comm]
    exact Nat.mul_le_mul_right _ (by omega)

/-- A magnitude is a whole number of its steps. -/
theorem stepAt_dvd_unitsAt (rank : Nat) : stepAt rank ∣ unitsAt rank := by
  rcases rank_cases rank with hrank | ⟨row, step, hstep, rfl⟩
  · rw [stepAt_of_lt hrank]
    exact Nat.one_dvd _
  · rw [stepAt_row row hstep, unitsAt_row row hstep]
    exact Nat.dvd_mul_left _ _

/-- One is a whole number of steps that are not larger. -/
theorem stepAt_dvd_unitsPerOne {rank : Nat} (h : stepAt rank ≤ unitsPerOne) :
    stepAt rank ∣ unitsPerOne :=
  Nat.pow_dvd_pow 2 ((Nat.pow_le_pow_iff_right (by decide)).mp h)

theorem unitsAt_lt_succ (rank : Nat) : unitsAt rank < unitsAt (rank + 1) := by
  rw [unitsAt_succ]
  exact Nat.lt_add_of_pos_right (stepAt_pos rank)

/-- **Magnitudes grow with their ranks.** -/
theorem unitsAt_strictMono : StrictMono unitsAt := strictMono_nat_of_lt_succ unitsAt_lt_succ

theorem log2_unitsAt_monotone : Monotone fun rank => (unitsAt rank).log2 := by
  intro rank rank' h
  dsimp only
  rw [Nat.log2_eq_log_two, Nat.log2_eq_log_two]
  exact Nat.log_mono_right (unitsAt_strictMono.monotone h)

/-- Steps do not become smaller. -/
theorem stepAt_monotone : Monotone stepAt := fun _ _ h =>
  Nat.pow_le_pow_right (by decide) (Nat.sub_le_sub_right (log2_unitsAt_monotone h) 52)

/-! ### The middle below infinity -/

/-- The middle between the largest finite magnitude and the one in the place of infinity, in
units. -/
def overflowUnits : Nat := (2 ^ 54 - 1) * 2 ^ 2044

theorem two_mul_overflowUnits :
    2 * overflowUnits = unitsAt (infinityRank - 1) + unitsAt infinityRank := by
  decide +kernel

/-- The rank of the largest finite magnitude is odd. -/
theorem odd_of_succ_eq_infinityRank {rank : Nat} (h : rank + 1 = infinityRank) :
    rank % 2 = 1 := by
  have hinfinity : infinityRank = 2047 * 2 ^ 52 := rfl
  omega

/-- The middle above a finite magnitude does not exceed `overflowUnits`, and reaches it above the
largest one only. -/
theorem unitsAt_add_unitsAt_succ_le {rank : Nat} (h : rank < infinityRank) :
    unitsAt rank + unitsAt (rank + 1) ≤ 2 * overflowUnits ∧
      (rank + 1 < infinityRank → unitsAt rank + unitsAt (rank + 1) < 2 * overflowUnits) := by
  have hlower : unitsAt rank ≤ unitsAt (infinityRank - 1) :=
    unitsAt_strictMono.monotone (Nat.le_sub_one_of_lt h)
  have hupper : unitsAt (rank + 1) ≤ unitsAt infinityRank := unitsAt_strictMono.monotone h
  rw [two_mul_overflowUnits]
  exact ⟨Nat.add_le_add hlower hupper, fun hlt =>
    Nat.add_lt_add_of_le_of_lt hlower (unitsAt_strictMono hlt)⟩

/-! ### Rounding below the middle -/

theorem droppedPlaces_eq (num den : Nat) : droppedPlaces num den = (num / den).log2 - 52 := rfl

/-- Of a quotient with `width` binary places more than a magnitude keeps, at most `width` places are
dropped. -/
theorem droppedPlaces_le {num den width : Nat} (h : num / den < 2 ^ (53 + width)) :
    droppedPlaces num den ≤ width := by
  rw [droppedPlaces_eq]
  by_cases hzero : num / den = 0
  · rw [hzero, Nat.log2_zero]
    omega
  · have hlog := (Nat.log2_lt hzero).mpr h
    omega

/-- A quotient of `53` binary places is left when the dropped ones are divided off. -/
theorem div_dropped_lt (num den : Nat) :
    num / (den * 2 ^ droppedPlaces num den) < 2 ^ 53 := by
  have hlog : num / den < 2 ^ ((num / den).log2 + 1) := Nat.lt_log2_self
  have hexp : (num / den).log2 + 1 ≤ 53 + droppedPlaces num den := by
    rw [droppedPlaces_eq]
    omega
  rw [← Nat.div_div_eq_div_mul, Nat.div_lt_iff_lt_mul (Nat.two_pow_pos _), ← pow_add]
  exact hlog.trans_le (Nat.pow_le_pow_right (by decide) hexp)

/-- A quotient is rounded up only from the half on. -/
theorem roundDiv_le {num den bound : Nat} (hden : 0 < den) (h : 2 * num < (2 * bound + 1) * den) :
    roundDiv num den ≤ bound := by
  have hsplit : den * (num / den) + num % den = num := Nat.div_add_mod num den
  rcases roundDiv_cases num den with ⟨hround, -⟩ | ⟨hround, hhalf⟩
  · rw [hround, ← Nat.lt_succ_iff, Nat.div_lt_iff_lt_mul hden, Nat.succ_eq_add_one]
    nlinarith
  · -- a quotient of `bound` that is rounded up has at least a half beyond it
    rw [hround, Nat.succ_le_iff]
    by_contra hle
    have hmul : den * bound ≤ den * (num / den) := Nat.mul_le_mul_left den (not_lt.mp hle)
    nlinarith

/-- **What lies below the middle has a finite rank.** -/
theorem roundRank_lt_infinityRank {num den : Nat} (hden : 0 < den)
    (h : num < overflowUnits * den) : roundRank num den < infinityRank := by
  have hdropped : droppedPlaces num den ≤ 2045 := by
    refine droppedPlaces_le ?_
    have hquotient : num / den < overflowUnits := (Nat.div_lt_iff_lt_mul hden).mpr h
    exact hquotient.trans (by decide +kernel)
  have hpos : 0 < den * 2 ^ droppedPlaces num den := Nat.mul_pos hden (Nat.two_pow_pos _)
  have hrank : roundRank num den =
      droppedPlaces num den * 2 ^ 52 + roundDiv num (den * 2 ^ droppedPlaces num den) := rfl
  have hinfinity : infinityRank = 2047 * 2 ^ 52 := rfl
  rcases Nat.lt_or_eq_of_le hdropped with hlt | heq
  · -- below the last row even a carry out of the fraction stays finite
    have hround : roundDiv num (den * 2 ^ droppedPlaces num den) ≤ 2 ^ 53 := by
      have hcarry := div_dropped_lt num den
      rcases roundDiv_cases num (den * 2 ^ droppedPlaces num den) with ⟨hr, -⟩ | ⟨hr, -⟩ <;> omega
    omega
  · -- in the last row a carry would lead to infinity, but starts only at the middle
    have hround : roundDiv num (den * 2 ^ droppedPlaces num den) ≤ 2 ^ 53 - 1 := by
      refine roundDiv_le hpos ?_
      have htop : 2 * (overflowUnits * den) = (2 * (2 ^ 53 - 1) + 1) * (den * 2 ^ 2045) := by
        have hunits : 2 * overflowUnits = (2 * (2 ^ 53 - 1) + 1) * 2 ^ 2045 := by decide +kernel
        rw [← Nat.mul_assoc, hunits, Nat.mul_assoc, Nat.mul_comm (2 ^ 2045) den]
      rw [heq, ← htop]
      omega
    omega

/-- A ratio below the middle is rounded to a finite number. -/
theorem isFinite_ofUnits (negative : Bool) {num den : Nat} (hden : 0 < den)
    (h : num < overflowUnits * den) : (ofUnits negative num den).isFinite = true := by
  have hlt := roundRank_lt_infinityRank hden h
  exact decide_eq_true (min_lt_of_left_lt hlt)

end PostfixCalculator.Binary64
