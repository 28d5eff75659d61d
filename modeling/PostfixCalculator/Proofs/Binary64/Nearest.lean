import PostfixCalculator.Proofs.Binary64.Rounding

/-!
# Rounding leads to the nearest magnitude

A ratio that is rounded lies between the middles of its magnitude and the two neighbours of that
magnitude, and on a middle only where the rank is even.  These are the ratios that a decimal has to
be among to be read back as the magnitude.

## Main results

* `roundDiv_spec` — a whole number lies within a half of the quotient that is rounded to it.
* `le_middle_of_roundRank`, `middle_le_of_roundRank` — **a ratio lies between the middles around the
  magnitude that it is rounded to.**
* `roundRank_eq_zero_iff` — what does not exceed half a unit is rounded to zero.
-/

namespace PostfixCalculator.Binary64

/-! ### A rounded quotient -/

/-- A whole number lies within a half of the quotient that is rounded to it, and an odd one does not
lie just a half away. -/
theorem roundDiv_spec (num : Nat) {den : Nat} (hden : 0 < den) :
    2 * num ≤ (2 * roundDiv num den + 1) * den ∧ 2 * roundDiv num den * den ≤ 2 * num + den ∧
      (roundDiv num den % 2 = 1 → 2 * num < (2 * roundDiv num den + 1) * den ∧
        2 * roundDiv num den * den < 2 * num + den) := by
  have hsplit : den * (num / den) + num % den = num := Nat.div_add_mod num den
  have hlt : num % den < den := Nat.mod_lt num hden
  -- both candidates, multiplied out
  have hlower : 2 * (num / den) * den = 2 * (den * (num / den)) := by ring
  have hupper : 2 * (num / den + 1) * den = 2 * (den * (num / den)) + 2 * den := by ring
  have hmiddle : (2 * (num / den) + 1) * den = 2 * (den * (num / den)) + den := by ring
  have habove : (2 * (num / den + 1) + 1) * den = 2 * (den * (num / den)) + 3 * den := by ring
  unfold roundDiv
  dsimp only
  split
  · rw [hlower, hmiddle]
    omega
  · split
    · rw [hupper, habove]
      omega
    · -- of two equally near ones the even one is taken
      rcases Nat.mod_two_eq_zero_or_one (num / den) with heven | hodd
      · have hround : num / den + num / den % 2 = num / den := by omega
        rw [hround, hlower, hmiddle]
        omega
      · rw [hodd, hupper, habove]
        omega

theorem roundDiv_eq_zero_iff {num den : Nat} (hden : 0 < den) :
    roundDiv num den = 0 ↔ 2 * num ≤ den := by
  obtain ⟨hle, hge, hodd⟩ := roundDiv_spec num hden
  constructor
  · intro hzero
    rw [hzero] at hle
    omega
  · intro hhalf
    by_contra hne
    have hone : roundDiv num den = 1 := by
      by_contra hmany
      have htwo : 2 * 2 * den ≤ 2 * roundDiv num den * den :=
        Nat.mul_le_mul_right den (Nat.mul_le_mul_left 2 (by omega))
      omega
    rw [hone] at hodd
    omega

/-! ### A rounded ratio -/

/-- A magnitude of `M` steps of size `2 ^ d`. -/
theorem unitsAt_scaled {d M : Nat} (hd : d = 0 ∨ 2 ^ 52 ≤ M) (hM : M ≤ 2 ^ 53) :
    unitsAt (d * 2 ^ 52 + M) = M * 2 ^ d := by
  by_cases hfirst : M < 2 ^ 52
  · obtain rfl : d = 0 := by omega
    rw [Nat.zero_mul, Nat.zero_add, unitsAt_of_lt hfirst, pow_zero, mul_one]
  obtain ⟨step, rfl⟩ := Nat.exists_eq_add_of_le (not_lt.mp hfirst)
  by_cases hrow : step < 2 ^ 52
  · rw [← Nat.add_assoc, ← Nat.succ_mul, unitsAt_row d hrow]
  · -- a carry out of the fraction leads to the next row
    obtain rfl : step = 2 ^ 52 := by omega
    have hcarry : d * 2 ^ 52 + (2 ^ 52 + 2 ^ 52) = (d + 1 + 1) * 2 ^ 52 + 0 := by omega
    rw [hcarry, unitsAt_row (d + 1) (by decide), pow_succ]
    ring

/-- From such a magnitude, the next one is `2 ^ d` away or more. -/
theorem pow_le_stepAt {d M : Nat} (hd : d = 0 ∨ 2 ^ 52 ≤ M) : 2 ^ d ≤ stepAt (d * 2 ^ 52 + M) := by
  rcases hd with rfl | hM
  · exact stepAt_pos _
  · rw [← stepAt_row d (Nat.two_pow_pos 52)]
    exact stepAt_monotone (by omega)

theorem roundRank_eq (num den : Nat) : roundRank num den =
    droppedPlaces num den * 2 ^ 52 + roundDiv num (den * 2 ^ droppedPlaces num den) := rfl

/-- Where places are dropped, the quotient that is left has all its places. -/
theorem le_div_dropped {num den : Nat} (h : droppedPlaces num den ≠ 0) :
    2 ^ 52 ≤ num / (den * 2 ^ droppedPlaces num den) := by
  rw [droppedPlaces_eq] at h ⊢
  have hne : num / den ≠ 0 := by
    intro hzero
    rw [hzero, Nat.log2_zero] at h
    omega
  have hlog : 2 ^ (num / den).log2 ≤ num / den := Nat.log2_self_le hne
  rw [← Nat.div_div_eq_div_mul, Nat.le_div_iff_mul_le (Nat.two_pow_pos _), ← pow_add]
  exact (Nat.pow_le_pow_right (by decide) (by omega)).trans hlog

theorem roundDiv_dropped_cases (num den : Nat) :
    (droppedPlaces num den = 0 ∨ 2 ^ 52 ≤ roundDiv num (den * 2 ^ droppedPlaces num den)) ∧
      roundDiv num (den * 2 ^ droppedPlaces num den) ≤ 2 ^ 53 := by
  have hcarry := div_dropped_lt num den
  have hround := roundDiv_cases num (den * 2 ^ droppedPlaces num den)
  constructor
  · by_cases hdropped : droppedPlaces num den = 0
    · exact .inl hdropped
    · have hfull := le_div_dropped hdropped
      omega
  · omega

/-- A ratio is rounded to a whole number of steps. -/
theorem unitsAt_roundRank (num den : Nat) : unitsAt (roundRank num den) =
    roundDiv num (den * 2 ^ droppedPlaces num den) * 2 ^ droppedPlaces num den :=
  unitsAt_scaled (roundDiv_dropped_cases num den).1 (roundDiv_dropped_cases num den).2

theorem roundRank_mod_two (num den : Nat) :
    roundRank num den % 2 = roundDiv num (den * 2 ^ droppedPlaces num den) % 2 := by
  rw [roundRank_eq]
  omega

/-- **A ratio does not lie past the middle above the magnitude that it is rounded to**, and reaches
it for an even rank only. -/
theorem le_middle_of_roundRank (num : Nat) {den : Nat} (hden : 0 < den) :
    2 * num ≤ (unitsAt (roundRank num den) + unitsAt (roundRank num den + 1)) * den ∧
      (roundRank num den % 2 = 1 →
        2 * num < (unitsAt (roundRank num den) + unitsAt (roundRank num den + 1)) * den) := by
  have hpos : 0 < den * 2 ^ droppedPlaces num den := Nat.mul_pos hden (Nat.two_pow_pos _)
  obtain ⟨hle, -, hodd⟩ := roundDiv_spec num hpos
  have hstep := pow_le_stepAt (roundDiv_dropped_cases num den).1
  rw [← roundRank_eq] at hstep
  have hmiddle : (2 * roundDiv num (den * 2 ^ droppedPlaces num den) + 1) *
      (den * 2 ^ droppedPlaces num den) ≤
        (unitsAt (roundRank num den) + unitsAt (roundRank num den + 1)) * den := by
    rw [unitsAt_succ]
    calc _ = (unitsAt (roundRank num den) +
            (unitsAt (roundRank num den) + 2 ^ droppedPlaces num den)) * den := by
          rw [unitsAt_roundRank]; ring
      _ ≤ _ := Nat.mul_le_mul_right den (by omega)
  refine ⟨hle.trans hmiddle, fun h => ?_⟩
  rw [roundRank_mod_two] at h
  exact (hodd h).1.trans_le hmiddle

/-- **A ratio does not lie past the middle below the magnitude that it is rounded to**, and reaches
it for an even rank only. -/
theorem middle_le_of_roundRank {num den : Nat} (hden : 0 < den) (hrank : roundRank num den ≠ 0) :
    (unitsAt (roundRank num den - 1) + unitsAt (roundRank num den)) * den ≤ 2 * num ∧
      (roundRank num den % 2 = 1 →
        (unitsAt (roundRank num den - 1) + unitsAt (roundRank num den)) * den < 2 * num) := by
  have hpos : 0 < den * 2 ^ droppedPlaces num den := Nat.mul_pos hden (Nat.two_pow_pos _)
  obtain ⟨-, hge, hodd⟩ := roundDiv_spec num hpos
  obtain ⟨hfull, -⟩ := roundDiv_dropped_cases num den
  have hunits := unitsAt_roundRank num den
  have hparity := roundRank_mod_two num den
  have hbelow : unitsAt (roundRank num den) =
      unitsAt (roundRank num den - 1) + stepAt (roundRank num den - 1) := by
    rw [← unitsAt_succ, Nat.sub_add_cancel (Nat.one_le_iff_ne_zero.mpr hrank)]
  by_cases hfirst : droppedPlaces num den ≠ 0 ∧
      roundDiv num (den * 2 ^ droppedPlaces num den) = 2 ^ 52
  · -- the step below the first magnitude of a row is shorter, and the ratio does not lie below
    have hratio : unitsAt (roundRank num den) * den ≤ num := by
      have hfloor := Nat.mul_le_of_le_div _ _ _ (le_div_dropped hfirst.1)
      rw [hunits, hfirst.2]
      calc _ = 2 ^ 52 * (den * 2 ^ droppedPlaces num den) := by ring
        _ ≤ num := hfloor
    have hlt : (unitsAt (roundRank num den - 1) + unitsAt (roundRank num den)) * den <
        2 * unitsAt (roundRank num den) * den := by
      have hstep := stepAt_pos (roundRank num den - 1)
      exact Nat.mul_lt_mul_of_pos_right (by omega) hden
    have hstrict : (unitsAt (roundRank num den - 1) + unitsAt (roundRank num den)) * den <
        2 * num := by
      refine hlt.trans_le ?_
      rw [mul_assoc]
      exact Nat.mul_le_mul_left 2 hratio
    exact ⟨hstrict.le, fun _ => hstrict⟩
  · have hstep : 2 ^ droppedPlaces num den ≤ stepAt (roundRank num den - 1) := by
      have hdropped : droppedPlaces num den = 0 ∨
          2 ^ 52 ≤ roundDiv num (den * 2 ^ droppedPlaces num den) - 1 := by omega
      have hrank' : roundRank num den - 1 = droppedPlaces num den * 2 ^ 52 +
          (roundDiv num (den * 2 ^ droppedPlaces num den) - 1) := by
        rw [roundRank_eq] at hrank ⊢
        omega
      rw [hrank']
      exact pow_le_stepAt hdropped
    have hmiddle : (unitsAt (roundRank num den - 1) + unitsAt (roundRank num den)) * den +
        den * 2 ^ droppedPlaces num den ≤
          2 * roundDiv num (den * 2 ^ droppedPlaces num den) *
            (den * 2 ^ droppedPlaces num den) := by
      calc _ = (unitsAt (roundRank num den - 1) + 2 ^ droppedPlaces num den +
              unitsAt (roundRank num den)) * den := by ring
        _ ≤ (unitsAt (roundRank num den) + unitsAt (roundRank num den)) * den :=
          Nat.mul_le_mul_right den (by omega)
        _ = _ := by rw [hunits]; ring
    refine ⟨by omega, fun h => ?_⟩
    rw [hparity] at h
    have hlt := (hodd h).2
    omega

/-- The magnitude below a positive one is not more than a step of that one away. -/
theorem unitsAt_le_pred_add_stepAt {rank : Nat} (h : rank ≠ 0) :
    unitsAt rank ≤ unitsAt (rank - 1) + stepAt rank := by
  have hbelow := unitsAt_succ (rank - 1)
  rw [Nat.sub_add_cancel (Nat.one_le_iff_ne_zero.mpr h)] at hbelow
  rw [hbelow]
  exact Nat.add_le_add_left (stepAt_monotone (Nat.sub_le rank 1)) _

/-- What does not exceed half a unit is rounded to zero, and nothing else. -/
theorem roundRank_eq_zero_iff {num den : Nat} (hden : 0 < den) :
    roundRank num den = 0 ↔ 2 * num ≤ den := by
  obtain ⟨hfull, -⟩ := roundDiv_dropped_cases num den
  rw [roundRank_eq]
  by_cases hdropped : droppedPlaces num den = 0
  · rw [hdropped, Nat.zero_mul, Nat.zero_add, pow_zero, mul_one, roundDiv_eq_zero_iff hden]
  · -- a ratio of which places are dropped is large
    have hlarge : den ≤ num := by
      have hne : num / den ≠ 0 := by
        intro hzero
        rw [droppedPlaces_eq, hzero, Nat.log2_zero] at hdropped
        exact hdropped rfl
      exact (Nat.one_le_div_iff hden).mp (Nat.one_le_iff_ne_zero.mpr hne)
    omega

end PostfixCalculator.Binary64
