import PostfixCalculator.Binary64.Literal
import PostfixCalculator.Proofs.Binary64.Shortest
import PostfixCalculator.Proofs.Decimal.Truncation

/-!
# The text of a finite number

A finite number is written as a spelling.  The decimal chosen reads back, so it does not lie past
the middle above the number, and stays below the one from which on a literal is infinite.  Cutting
the text leads no farther from zero: what is left is again read as a finite number.

## Main definitions

* `overflowBound` — what the literals of finite numbers stay below.
* `spelling x` — the text of a finite number, on the pieces.

## Main results

* `isFinite_ofLiteral` — a literal below `overflowBound` is read as a finite number.
* `shortest_lt_overflowBound` — the decimal chosen for a finite magnitude lies below it.
* `text_eq_text_spelling` — the text of a finite number is that of its spelling.
* `parse?_truncate`, `exists_parse?_truncate` — the text of a finite number, cut, is read as the
  number cut, and that is finite.
-/

namespace PostfixCalculator

open Decimal

/-- The magnitude of a literal, as it is read. -/
theorem Literal.abs_value (n : Literal) : |n.value| = n.magnitudeNum / n.magnitudeDen := by
  have hvalue : n.value = signed n.negative (n.magnitudeNum / 10 ^ (-n.scale).toNat) :=
    mkRat_signed n.negative n.magnitudeNum (-n.scale).toNat
  rw [hvalue, abs_signed, abs_of_nonneg (by positivity), magnitudeDen]
  push_cast
  rfl

theorem Literal.value_eq_signed_abs (n : Literal) : n.value = signed n.negative |n.value| := by
  rw [n.value_eq, abs_signed, abs_of_nonneg (by positivity)]

namespace Binary64

/-- The middle below infinity, as a number. -/
def overflowBound : ℚ := overflowUnits / unitsPerOne

theorem overflowBound_pos : 0 < overflowBound := by
  have hunits : 0 < overflowUnits := by decide +kernel
  exact div_pos (Nat.cast_pos.mpr hunits) (Nat.cast_pos.mpr unitsPerOne_pos)

/-- A ratio below `overflowBound` is below the middle below infinity, in units. -/
theorem lt_overflowUnits_mul {num den : Nat} (hden : 0 < den)
    (h : (num : ℚ) / den / unitsPerOne < overflowBound) : num < overflowUnits * den := by
  have hdenQ : (0 : ℚ) < den := Nat.cast_pos.mpr hden
  rw [overflowBound, div_lt_div_iff_of_pos_right unitsPerOne_pos', div_lt_iff₀ hdenQ] at h
  exact_mod_cast h

/-- The magnitude of a literal, over units. -/
theorem abs_value_eq_units (n : Literal) :
    |n.value| = ((n.magnitudeNum * unitsPerOne : ℕ) : ℚ) / n.magnitudeDen / unitsPerOne := by
  rw [n.abs_value, Nat.cast_mul, mul_div_right_comm, mul_div_assoc, div_self unitsPerOne_pos'.ne',
    mul_one]

/-- **A literal below the bound is read as a finite number.** -/
theorem isFinite_ofLiteral {n : Literal} (h : |n.value| < overflowBound) :
    (ofLiteral n).isFinite = true := by
  have hden : 0 < n.magnitudeDen := Nat.pow_pos (by decide)
  rw [abs_value_eq_units] at h
  exact isFinite_ofUnits n.negative hden (lt_overflowUnits_mul hden h)

/-- What is rounded to a finite magnitude lies below the bound. -/
theorem Covers.lt_overflowBound {rank : Nat} {q : ℚ} (h : Covers rank q)
    (hrank : rank < infinityRank) : q < overflowBound := by
  have hone : (0 : ℚ) < 2 * unitsPerOne := mul_pos two_pos unitsPerOne_pos'
  have hbound : overflowBound = ((2 * overflowUnits : ℕ) : ℚ) / (2 * unitsPerOne) := by
    rw [Nat.cast_mul, Nat.cast_ofNat, mul_div_mul_left _ _ two_ne_zero, overflowBound]
  obtain ⟨hmiddle, hbelow⟩ := unitsAt_add_unitsAt_succ_le hrank
  rw [hbound]
  by_cases hlast : rank + 1 < infinityRank
  · refine h.1.2.trans_lt ?_
    exact div_lt_div_of_pos_right (Nat.cast_lt.mpr (hbelow hlast)) hone
  · -- the largest finite magnitude has an odd rank
    have hodd : rank % 2 = 1 :=
      odd_of_succ_eq_infinityRank (Nat.le_antisymm hrank (not_lt.mp hlast))
    refine (h.2 hodd).2.trans_le ?_
    exact div_le_div_of_nonneg_right (Nat.cast_le.mpr hmiddle) hone.le

/-- **The decimal chosen for a finite magnitude lies below the bound.** -/
theorem shortest_lt_overflowBound {rank : Nat} (hrank : rank ≠ 0) (h : rank < infinityRank) :
    ((shortest rank).1 : ℚ) * 10 ^ (shortest rank).2 < overflowBound :=
  (readsBack_iff.mp (readsBack_shortest hrank h)).lt_overflowBound h

/-! ### The text -/

/-- A decimal in full is its digits with the point put where the power of ten says. -/
theorem fullChars_eq (a : Nat) (p : Int) :
    fullChars a p =
      Literal.placePoint (Numeral.text (Numeral.ofNat a)) ((Numeral.ofNat a).length + p) := by
  have hpos : 0 < (Numeral.ofNat a).length :=
    List.length_pos_iff.mpr (Numeral.isTrimmed_ofNat a).ne_nil
  unfold fullChars Literal.placePoint
  dsimp only
  rw [Numeral.length_text]
  generalize (Numeral.ofNat a).length = len at hpos ⊢
  by_cases hp : 0 ≤ p
  · -- the point stands behind the digits, after some zeros
    have hpoint : ¬(len : Int) + p ≤ 0 := by omega
    have hlen : len ≤ ((len : Int) + p).toNat := by omega
    have hzeros : ((len : Int) + p).toNat - len = p.toNat := by omega
    rw [if_pos hp, if_neg hpoint, if_pos hlen, hzeros]
  · rw [if_neg hp]
    by_cases hplaces : (-p).toNat < len
    · -- the point falls among the digits
      have hpoint : ¬(len : Int) + p ≤ 0 := by omega
      have hlen : ¬len ≤ ((len : Int) + p).toNat := by omega
      have htake : ((len : Int) + p).toNat = len - (-p).toNat := by omega
      rw [if_pos hplaces, if_neg hpoint, if_neg hlen, htake]
    · -- the point stands before the digits, and zeros between
      have hpoint : (len : Int) + p ≤ 0 := by omega
      have hzeros : (-((len : Int) + p)).toNat = (-p).toNat - len := by omega
      rw [if_neg hplaces, if_pos hpoint, hzeros]

/-- The digits and the power of ten that a finite number is written with. -/
def decimal (x : Binary64) : Nat × Int := if x.rank = 0 then (0, 0) else shortest x.rank

/-- The text of a finite number, on the pieces. -/
def spelling (x : Binary64) : Spelling :=
  pointed x.negative (Numeral.ofNat x.decimal.1) ((Numeral.ofNat x.decimal.1).length + x.decimal.2)

theorem whole_spelling_ne_nil (x : Binary64) : x.spelling.whole ≠ [] := whole_pointed_ne_nil _ _ _

/-- **The text of a finite number is that of its spelling.** -/
theorem text_eq_text_spelling {x : Binary64} (h : x.isFinite = true) :
    x.text = x.spelling.text := by
  have hfinite : x.rank ≠ infinityRank := (of_decide_eq_true h).ne
  have hchars : magnitudeChars x.rank = fullChars x.decimal.1 x.decimal.2 := by
    unfold magnitudeChars decimal
    by_cases hzero : x.rank = 0
    · rw [if_pos hzero, if_pos hzero]
      rfl
    · rw [if_neg hzero, if_neg hfinite, if_neg hzero]
  rw [text, hchars, fullChars_eq, placePoint_text x.negative, Spelling.text, Spelling.chars_eq,
    spelling, negative_pointed]

theorem value_spelling (x : Binary64) :
    x.spelling.value = signed x.negative (x.decimal.1 * 10 ^ x.decimal.2) := by
  rw [spelling, value_pointed, Numeral.horner_ofNat, add_sub_cancel_left]

theorem abs_value_spelling (x : Binary64) :
    |x.spelling.value| = x.decimal.1 * 10 ^ x.decimal.2 := by
  rw [value_spelling, abs_signed, abs_of_nonneg (by positivity)]

theorem abs_value_spelling_lt {x : Binary64} (h : x.isFinite = true) :
    |x.spelling.value| < overflowBound := by
  rw [abs_value_spelling, decimal]
  split
  · simpa using overflowBound_pos
  · next hrank => exact shortest_lt_overflowBound hrank (of_decide_eq_true h)

/-- **The text of a finite number, cut, is read as the literal of the cut number.** -/
theorem parse?_truncate {x : Binary64} (h : x.isFinite = true) (places : Nat) :
    ∃ n : Literal, (truncate? x.text places).bind parse? = some (ofLiteral n) ∧
      n.value = cut x.spelling.value places := by
  have hdigit : (x.spelling.truncated places).HasDigit := by
    refine .inl ?_
    rw [Spelling.whole_truncated]
    exact x.whole_spelling_ne_nil
  refine ⟨(x.spelling.truncated places).toLiteral hdigit, ?_, ?_⟩
  · rw [text_eq_text_spelling h, truncate?_text, Option.bind_some, parse?,
      Spelling.parse?_text hdigit, Option.map_some]
  · rw [Spelling.value_toLiteral, Spelling.value_truncated]

/-- **The text of a finite number, cut, is read as a finite number.** -/
theorem exists_parse?_truncate {x : Binary64} (h : x.isFinite = true) (places : Nat) :
    ∃ y, (truncate? x.text places).bind parse? = some y ∧ y.isFinite = true := by
  obtain ⟨n, hparse, hvalue⟩ := parse?_truncate h places
  refine ⟨ofLiteral n, hparse, isFinite_ofLiteral ?_⟩
  rw [hvalue]
  exact (abs_cut_le _ _).trans_lt (abs_value_spelling_lt h)

end Binary64

end PostfixCalculator
