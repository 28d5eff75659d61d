import PostfixCalculator.Binary64.Shortest
import PostfixCalculator.Proofs.Binary64.Nearest
import PostfixCalculator.Proofs.Literal.Flat

/-!
# The decimal chosen for a number

The reals that are rounded to a magnitude form an interval, from the middle below to the middle
above, and a decimal reads back when it lies in it.  The interval has no gaps, so of a grid only the
two points around the magnitude have to be looked at.  The finest grid looked at is fine enough to
have a point in every interval, and the coarsest one is too coarse for any grid beyond it; so the
search finds a decimal, and it finds one on the coarsest grid that has any.

## Main definitions

* `magnitudeAt rank`, `middle rank rank'` — a magnitude, and the middle of two, as numbers.
* `Covers rank q` — the number `q` is in the interval of the rank.

## Main results

* `readsBack_iff` — a decimal reads back when it is in the interval.
* `covers_roundRank`, `abs_magnitudeAt_roundRank_sub_le` — a ratio is in the interval of the
  magnitude that it is rounded to, and within half a step of it.
* `exists_gridPoint?` — no grid with a point in the interval is passed over.
* `readsBack_shortest` — **the decimal chosen reads back.**
* `le_shortest_of_readsBack` — **no decimal on a coarser grid does.**
* `shortest_eq_of_covers` — a number of few places in the interval is the decimal chosen.
-/

namespace PostfixCalculator.Binary64

open Decimal

-- The number is never computed here, but in `grids_suffice`.
attribute [local irreducible] unitsPerOne

/-! ### The interval of a magnitude -/

/-- The middle of the magnitudes of two ranks. -/
def middle (rank rank' : Nat) : ℚ := ((unitsAt rank + unitsAt rank' : ℕ) : ℚ) / (2 * unitsPerOne)

/-- The number is in the interval of the rank: it does not lie past the middles around the
magnitude, and is none of them when the rank is odd. -/
def Covers (rank : Nat) (q : ℚ) : Prop :=
  (middle (rank - 1) rank ≤ q ∧ q ≤ middle rank (rank + 1)) ∧
    (rank % 2 = 1 → middle (rank - 1) rank < q ∧ q < middle rank (rank + 1))

/-- The magnitude of a rank, as a number. -/
def magnitudeAt (rank : Nat) : ℚ := unitsAt rank / unitsPerOne

theorem compareToMiddle_eq_lt {a : Nat} {p : Int} {rank rank' : Nat} :
    compareToMiddle a p rank rank' = .lt ↔
      a * 10 ^ p.toNat * (2 * unitsPerOne) < (unitsAt rank + unitsAt rank') * 10 ^ (-p).toNat :=
  Nat.compare_eq_lt

theorem compareToMiddle_eq_eq {a : Nat} {p : Int} {rank rank' : Nat} :
    compareToMiddle a p rank rank' = .eq ↔
      a * 10 ^ p.toNat * (2 * unitsPerOne) = (unitsAt rank + unitsAt rank') * 10 ^ (-p).toNat :=
  Nat.compare_eq_eq

@[simp] theorem magnitudeAt_zero : magnitudeAt 0 = 0 := by
  have hunits : unitsAt 0 = 0 := unitsAt_of_lt (by decide)
  rw [magnitudeAt, hunits, Nat.cast_zero, zero_div]

theorem magnitudeAt_nonneg (rank : Nat) : 0 ≤ magnitudeAt rank := by
  rw [magnitudeAt]
  positivity

/-- Comparing with a middle by cross-multiplying is comparing with it. -/
theorem compareToMiddle_eq (a : Nat) (p : Int) (rank rank' : Nat) :
    compareToMiddle a p rank rank' = compare ((a : ℚ) * 10 ^ p) (middle rank rank') := by
  have hpow : (0 : ℚ) < 10 ^ (-p).toNat := by positivity
  have hunits : (0 : ℚ) < 2 * unitsPerOne := mul_pos two_pos unitsPerOne_pos'
  have hvalue : (a : ℚ) * 10 ^ p = ((a * 10 ^ p.toNat : ℕ) : ℚ) / 10 ^ (-p).toNat := by
    rw [ten_zpow_eq_div, mul_div_assoc', Nat.cast_mul, Nat.cast_pow, Nat.cast_ofNat]
  rw [hvalue, middle]
  rcases lt_trichotomy (a * 10 ^ p.toNat * (2 * unitsPerOne))
    ((unitsAt rank + unitsAt rank') * 10 ^ (-p).toNat) with hlt | heq | hgt
  · rw [compareToMiddle_eq_lt.mpr hlt, eq_comm, compare_lt_iff_lt, div_lt_div_iff₀ hpow hunits]
    exact_mod_cast hlt
  · rw [compareToMiddle_eq_eq.mpr heq, eq_comm, compare_eq_iff_eq,
      div_eq_div_iff hpow.ne' hunits.ne']
    exact_mod_cast heq
  · have hcompare : compareToMiddle a p rank rank' = .gt := Nat.compare_eq_gt.mpr hgt
    rw [hcompare, eq_comm, compare_gt_iff_gt, div_lt_div_iff₀ hunits hpow]
    exact_mod_cast hgt

/-- **A decimal reads back when it is in the interval.** -/
theorem readsBack_iff {rank a : Nat} {p : Int} :
    readsBack rank a p = true ↔ Covers rank (a * 10 ^ p) := by
  unfold readsBack Covers
  dsimp only
  rw [compareToMiddle_eq, compareToMiddle_eq]
  generalize (a : ℚ) * 10 ^ p = q
  simp only [Bool.and_eq_true, Bool.or_eq_true, decide_eq_true_eq, compare_gt_iff_gt,
    compare_lt_iff_lt, compare_eq_iff_eq]
  rcases Nat.mod_two_eq_zero_or_one rank with heven | hodd
  · simp [heven, le_iff_lt_or_eq, eq_comm]
  · simp only [hodd, one_ne_zero, false_and, or_false, true_implies]
    exact ⟨fun h => ⟨⟨h.1.le, h.2.le⟩, h⟩, fun h => h.2⟩

/-- The interval has no gaps. -/
theorem Covers.between {rank : Nat} {q r s : ℚ} (hq : Covers rank q) (hs : Covers rank s)
    (hqr : q ≤ r) (hrs : r ≤ s) : Covers rank r :=
  ⟨⟨hq.1.1.trans hqr, hrs.trans hs.1.2⟩, fun hodd =>
    ⟨(hq.2 hodd).1.trans_le hqr, hrs.trans_lt (hs.2 hodd).2⟩⟩

theorem middle_lt_magnitudeAt {rank rank' : Nat} (h : rank < rank') :
    middle rank rank' < magnitudeAt rank' := by
  have hunits : ((unitsAt rank : ℕ) : ℚ) < unitsAt rank' := by exact_mod_cast unitsAt_strictMono h
  have hone := unitsPerOne_pos'
  rw [middle, magnitudeAt, div_lt_div_iff₀ (by positivity) hone, Nat.cast_add]
  nlinarith

theorem magnitudeAt_lt_middle {rank rank' : Nat} (h : rank < rank') :
    magnitudeAt rank < middle rank rank' := by
  have hunits : ((unitsAt rank : ℕ) : ℚ) < unitsAt rank' := by exact_mod_cast unitsAt_strictMono h
  have hone := unitsPerOne_pos'
  rw [middle, magnitudeAt, div_lt_div_iff₀ hone (by positivity), Nat.cast_add]
  nlinarith

/-- The magnitude itself is in its interval. -/
theorem covers_magnitudeAt {rank : Nat} (h : rank ≠ 0) : Covers rank (magnitudeAt rank) := by
  have hbelow : middle (rank - 1) rank < magnitudeAt rank := middle_lt_magnitudeAt (by omega)
  have habove := magnitudeAt_lt_middle rank.lt_succ_self
  exact ⟨⟨hbelow.le, habove.le⟩, fun _ => ⟨hbelow, habove⟩⟩

/-- The middle above lies half a step above the magnitude. -/
theorem middle_succ (rank : Nat) :
    middle rank (rank + 1) = magnitudeAt rank + stepAt rank / (2 * unitsPerOne) := by
  have hone := unitsPerOne_pos'.ne'
  rw [middle, magnitudeAt, unitsAt_succ]
  push_cast
  field_simp
  ring

/-- The middle below does not lie more than half a step below the magnitude. -/
theorem le_middle_pred {rank : Nat} (h : rank ≠ 0) :
    magnitudeAt rank - stepAt rank / (2 * unitsPerOne) ≤ middle (rank - 1) rank := by
  have hone := unitsPerOne_pos'
  have hpred : ((unitsAt rank : ℕ) : ℚ) ≤ unitsAt (rank - 1) + stepAt rank := by
    exact_mod_cast unitsAt_le_pred_add_stepAt h
  have hvalue : magnitudeAt rank - stepAt rank / (2 * unitsPerOne) =
      (2 * unitsAt rank - stepAt rank) / (2 * unitsPerOne) := by
    rw [magnitudeAt]
    field_simp
  rw [hvalue, middle, Nat.cast_add]
  exact div_le_div_of_nonneg_right (by linarith) (by positivity)

/-- What is in the interval lies within half a step of the magnitude. -/
theorem Covers.abs_sub_le {rank : Nat} {q : ℚ} (h : Covers rank q) (hrank : rank ≠ 0) :
    |q - magnitudeAt rank| ≤ stepAt rank / (2 * unitsPerOne) := by
  have hbelow := (le_middle_pred hrank).trans h.1.1
  have habove := h.1.2
  rw [middle_succ] at habove
  rw [abs_le]
  constructor <;> linarith

/-! ### What is rounded to a magnitude -/

section Ratio

variable {num den rank rank' : Nat}

theorem middle_le_ratio_iff (hden : 0 < den) :
    middle rank rank' ≤ num / den / unitsPerOne ↔
      (unitsAt rank + unitsAt rank') * den ≤ 2 * num := by
  have hdenQ : (0 : ℚ) < den := Nat.cast_pos.mpr hden
  rw [middle, ← div_div, div_le_div_iff_of_pos_right unitsPerOne_pos',
    div_le_div_iff₀ two_pos hdenQ, mul_comm (num : ℚ)]
  exact_mod_cast Iff.rfl

theorem ratio_le_middle_iff (hden : 0 < den) :
    (num : ℚ) / den / unitsPerOne ≤ middle rank rank' ↔
      2 * num ≤ (unitsAt rank + unitsAt rank') * den := by
  have hdenQ : (0 : ℚ) < den := Nat.cast_pos.mpr hden
  rw [middle, ← div_div, div_le_div_iff_of_pos_right unitsPerOne_pos',
    div_le_div_iff₀ hdenQ two_pos, mul_comm (num : ℚ)]
  exact_mod_cast Iff.rfl

/-- **A ratio is in the interval of the magnitude that it is rounded to.** -/
theorem covers_roundRank (hden : 0 < den) (hrank : roundRank num den ≠ 0) :
    Covers (roundRank num den) (num / den / unitsPerOne) := by
  obtain ⟨habove, hltAbove⟩ := le_middle_of_roundRank num hden
  obtain ⟨hbelow, hltBelow⟩ := middle_le_of_roundRank hden hrank
  refine ⟨⟨(middle_le_ratio_iff hden).mpr hbelow, (ratio_le_middle_iff hden).mpr habove⟩,
    fun hodd => ⟨?_, ?_⟩⟩
  · exact (lt_iff_lt_of_le_iff_le (ratio_le_middle_iff hden)).mpr (hltBelow hodd)
  · exact (lt_iff_lt_of_le_iff_le (middle_le_ratio_iff hden)).mpr (hltAbove hodd)

/-- **A ratio lies within half a step of the magnitude that it is rounded to.** -/
theorem abs_magnitudeAt_roundRank_sub_le (hden : 0 < den) :
    |magnitudeAt (roundRank num den) - num / den / unitsPerOne| ≤
      stepAt (roundRank num den) / (2 * unitsPerOne) := by
  by_cases hrank : roundRank num den = 0
  · -- zero has no interval below it, but no ratio lies there
    have habove := (ratio_le_middle_iff hden).mpr (le_middle_of_roundRank num hden).1
    rw [middle_succ, hrank, magnitudeAt_zero, zero_add] at habove
    rw [hrank, magnitudeAt_zero, zero_sub, abs_neg, abs_of_nonneg (by positivity)]
    exact habove
  · rw [abs_sub_comm]
    exact (covers_roundRank hden hrank).abs_sub_le hrank

end Ratio

/-! ### The points of a grid -/

/-- The rule for the point of a grid.  It is an equation of functions because checking it at given
arguments would compute the large numbers that they are compared with. -/
theorem gridPoint?_eq : gridPoint? = fun rank p =>
    match readsBack rank (gridFloor rank p) p, readsBack rank (gridFloor rank p + 1) p with
    | true, true => some (if nearerBelow rank (gridFloor rank p) p then gridFloor rank p
        else gridFloor rank p + 1)
    | true, false => some (gridFloor rank p)
    | false, true => some (gridFloor rank p + 1)
    | false, false => none := by
  delta gridPoint?
  rfl

theorem readsBack_of_gridPoint? {rank a : Nat} {p : Int} (h : gridPoint? rank p = some a) :
    readsBack rank a p = true := by
  rw [gridPoint?_eq] at h
  beta_reduce at h
  cases hlower : readsBack rank (gridFloor rank p) p <;>
    cases hupper : readsBack rank (gridFloor rank p + 1) p <;>
    rw [hlower, hupper] at h
  · cases h
  · cases h
    exact hupper
  · cases h
    exact hlower
  · rw [← Option.some.inj h]
    split
    · exact hlower
    · exact hupper

theorem gridFloor_le (rank : Nat) (p : Int) :
    (gridFloor rank p : ℚ) * 10 ^ p ≤ magnitudeAt rank := by
  have hfloor : gridFloor rank p * (unitsPerOne * 10 ^ p.toNat) ≤ unitsAt rank * 10 ^ (-p).toNat :=
    Nat.div_mul_le_self _ _
  have hpow : (0 : ℚ) < 10 ^ (-p).toNat := by positivity
  rw [ten_zpow_eq_div, mul_div_assoc', magnitudeAt, div_le_div_iff₀ hpow unitsPerOne_pos']
  calc (gridFloor rank p : ℚ) * 10 ^ p.toNat * unitsPerOne
      = ((gridFloor rank p * (unitsPerOne * 10 ^ p.toNat) : ℕ) : ℚ) := by push_cast; ring
    _ ≤ ((unitsAt rank * 10 ^ (-p).toNat : ℕ) : ℚ) := Nat.cast_le.mpr hfloor
    _ = unitsAt rank * 10 ^ (-p).toNat := by push_cast; ring

theorem lt_gridFloor_succ (rank : Nat) (p : Int) :
    magnitudeAt rank < ((gridFloor rank p + 1 : ℕ) : ℚ) * 10 ^ p := by
  have hgrid : 0 < unitsPerOne * 10 ^ p.toNat :=
    Nat.mul_pos unitsPerOne_pos (Nat.pow_pos (by decide))
  have hfloor : unitsAt rank * 10 ^ (-p).toNat <
      (gridFloor rank p + 1) * (unitsPerOne * 10 ^ p.toNat) :=
    Nat.lt_mul_of_div_lt (Nat.lt_succ_self _) hgrid
  have hpow : (0 : ℚ) < 10 ^ (-p).toNat := by positivity
  rw [ten_zpow_eq_div, mul_div_assoc', magnitudeAt, div_lt_div_iff₀ unitsPerOne_pos' hpow]
  calc (unitsAt rank : ℚ) * 10 ^ (-p).toNat
      = ((unitsAt rank * 10 ^ (-p).toNat : ℕ) : ℚ) := by push_cast; ring
    _ < (((gridFloor rank p + 1) * (unitsPerOne * 10 ^ p.toNat) : ℕ) : ℚ) := Nat.cast_lt.mpr hfloor
    _ = ((gridFloor rank p + 1 : ℕ) : ℚ) * 10 ^ p.toNat * unitsPerOne := by push_cast; ring

/-- **No grid with a point in the interval is passed over**: one of the two points around the
magnitude is in the interval, too. -/
theorem exists_gridPoint? {rank a : Nat} {p : Int} (hrank : rank ≠ 0)
    (h : readsBack rank a p = true) : ∃ c, gridPoint? rank p = some c := by
  have hpow : (0 : ℚ) < 10 ^ p := by positivity
  have hcovers := readsBack_iff.mp h
  have hmagnitude := covers_magnitudeAt hrank
  have hbelow := gridFloor_le rank p
  have habove := lt_gridFloor_succ rank p
  have hpoint : readsBack rank (gridFloor rank p) p = true ∨
      readsBack rank (gridFloor rank p + 1) p = true := by
    rcases Nat.lt_or_ge (gridFloor rank p) a with hlt | hge
    · have hle : ((gridFloor rank p + 1 : ℕ) : ℚ) * 10 ^ p ≤ a * 10 ^ p :=
        mul_le_mul_of_nonneg_right (Nat.cast_le.mpr hlt) hpow.le
      exact .inr (readsBack_iff.mpr (hmagnitude.between hcovers habove.le hle))
    · have hle : (a : ℚ) * 10 ^ p ≤ gridFloor rank p * 10 ^ p :=
        mul_le_mul_of_nonneg_right (Nat.cast_le.mpr hge) hpow.le
      exact .inl (readsBack_iff.mpr (hcovers.between hmagnitude hle hbelow))
  rw [gridPoint?_eq]
  beta_reduce
  cases hlower : readsBack rank (gridFloor rank p) p <;>
    cases hupper : readsBack rank (gridFloor rank p + 1) p
  · rw [hlower, hupper] at hpoint
    simp at hpoint
  · exact ⟨_, rfl⟩
  · exact ⟨_, rfl⟩
  · exact ⟨_, rfl⟩

/-! ### The grids looked at -/

/-- The power of ten that the search begins with, for a magnitude of the given binary logarithm. -/
def ceilingPowerOf (log : Nat) : Int := (log - 1073 : Int) * 30103 / 100000 + 1

/-- Whatever the binary logarithm of a magnitude, the finest grid looked at is finer than half a
step, and the coarsest is coarser than the magnitude. -/
theorem grids_suffice : ∀ log < 2098,
    10 ^ (ceilingPowerOf log - 19).toNat * (2 * unitsPerOne) <
        2 ^ (log - 52) * 10 ^ (-(ceilingPowerOf log - 19)).toNat ∧
      2 ^ (log + 1) * 10 ^ (-ceilingPowerOf log).toNat ≤
        10 ^ (ceilingPowerOf log).toNat * unitsPerOne := by
  decide +kernel

theorem log2_unitsAt_lt {rank : Nat} (h : rank < infinityRank) : (unitsAt rank).log2 < 2098 := by
  have hlast : (unitsAt (infinityRank - 1)).log2 < 2098 := by decide +kernel
  exact (log2_unitsAt_monotone (Nat.le_sub_one_of_lt h)).trans_lt hlast

/-- The finest grid looked at is finer than half a step. -/
theorem finest_lt {rank : Nat} (h : rank < infinityRank) :
    (10 : ℚ) ^ (ceilingPower rank - 19) < stepAt rank / (2 * unitsPerOne) := by
  have hgrid : 10 ^ (ceilingPower rank - 19).toNat * (2 * unitsPerOne) <
      stepAt rank * 10 ^ (-(ceilingPower rank - 19)).toNat :=
    (grids_suffice _ (log2_unitsAt_lt h)).1
  have hpow : (0 : ℚ) < 10 ^ (-(ceilingPower rank - 19)).toNat := by positivity
  have hone : (0 : ℚ) < 2 * unitsPerOne := mul_pos two_pos unitsPerOne_pos'
  rw [ten_zpow_eq_div, div_lt_div_iff₀ hpow hone]
  exact_mod_cast hgrid

/-- The coarsest grid looked at is coarser than the magnitude. -/
theorem magnitudeAt_lt_coarsest {rank : Nat} (h : rank < infinityRank) :
    magnitudeAt rank < 10 ^ ceilingPower rank := by
  have hgrid : 2 ^ ((unitsAt rank).log2 + 1) * 10 ^ (-ceilingPower rank).toNat ≤
      10 ^ (ceilingPower rank).toNat * unitsPerOne :=
    (grids_suffice _ (log2_unitsAt_lt h)).2
  have hlog : unitsAt rank < 2 ^ ((unitsAt rank).log2 + 1) := Nat.lt_log2_self
  have hlt : unitsAt rank * 10 ^ (-ceilingPower rank).toNat <
      10 ^ (ceilingPower rank).toNat * unitsPerOne :=
    (Nat.mul_lt_mul_of_pos_right hlog (Nat.pow_pos (by decide))).trans_le hgrid
  have hpow : (0 : ℚ) < 10 ^ (-ceilingPower rank).toNat := by positivity
  rw [magnitudeAt, ten_zpow_eq_div, div_lt_div_iff₀ unitsPerOne_pos' hpow]
  exact_mod_cast hlt

/-- The finest grid has a point in the interval: the next one above the magnitude. -/
theorem readsBack_finest {rank : Nat} (hrank : rank ≠ 0) (h : rank < infinityRank) :
    readsBack rank (gridFloor rank (ceilingPower rank - 19) + 1) (ceilingPower rank - 19) =
      true := by
  have hbelow : middle (rank - 1) rank < magnitudeAt rank := middle_lt_magnitudeAt (by omega)
  have hfloor := gridFloor_le rank (ceilingPower rank - 19)
  have hnext := lt_gridFloor_succ rank (ceilingPower rank - 19)
  have hfine := finest_lt h
  have habove : ((gridFloor rank (ceilingPower rank - 19) + 1 : ℕ) : ℚ) *
      10 ^ (ceilingPower rank - 19) < middle rank (rank + 1) := by
    rw [middle_succ, Nat.cast_add_one, add_mul, one_mul]
    linarith
  rw [readsBack_iff]
  exact ⟨⟨(hbelow.trans hnext).le, habove.le⟩, fun _ => ⟨hbelow.trans hnext, habove⟩⟩

/-- A decimal that reads back is on a grid that is not coarser than the coarsest one looked at. -/
theorem le_ceilingPower {rank a : Nat} {p : Int} (hrank : rank ≠ 0) (h : rank < infinityRank)
    (hreads : readsBack rank a p = true) : p ≤ ceilingPower rank := by
  have hcovers := readsBack_iff.mp hreads
  have hcoarse := magnitudeAt_lt_coarsest h
  by_contra hlt
  have hpow : (10 : ℚ) * 10 ^ ceilingPower rank ≤ 10 ^ p := by
    rw [← zpow_one_add₀ (by norm_num)]
    exact zpow_le_zpow_right₀ (by norm_num) (by omega)
  rcases Nat.eq_zero_or_pos a with rfl | hpos
  · -- zero is no positive magnitude
    have hbelow := hcovers.1.1
    have hunits : 0 < unitsAt (rank - 1) + unitsAt rank := by
      have := unitsAt_strictMono (Nat.pos_of_ne_zero hrank)
      omega
    have hmiddle : 0 < middle (rank - 1) rank :=
      div_pos (Nat.cast_pos.mpr hunits) (mul_pos two_pos unitsPerOne_pos')
    rw [Nat.cast_zero, zero_mul] at hbelow
    exact absurd hbelow (not_le.mpr hmiddle)
  · -- and any other multiple lies far above the magnitude
    have habove := hcovers.1.2
    have hmultiple : (10 : ℚ) ^ p ≤ a * 10 ^ p :=
      le_mul_of_one_le_left (by positivity) (by exact_mod_cast hpos)
    have hnonneg := magnitudeAt_nonneg rank
    have hmiddle : middle rank (rank + 1) ≤ 2 * magnitudeAt rank := by
      have hstep : (stepAt rank : ℚ) ≤ 2 * unitsAt rank := by
        have hpositive := unitsAt_strictMono (Nat.pos_of_ne_zero hrank)
        have hle : stepAt rank ≤ 2 * unitsAt rank := by
          rcases stepAt_cases rank with hone | hplace
          · omega
          · omega
        exact_mod_cast hle
      have hhalf : (stepAt rank : ℚ) / (2 * unitsPerOne) ≤ magnitudeAt rank := by
        rw [magnitudeAt, div_le_div_iff₀ (mul_pos two_pos unitsPerOne_pos') unitsPerOne_pos']
        have hmul := mul_le_mul_of_nonneg_right hstep unitsPerOne_pos'.le
        linarith
      rw [middle_succ]
      linarith
    linarith

/-! ### The decimal chosen -/

/-- The decimal on the grid that is looked at after `k` others. -/
def attempt? (rank k : Nat) : Option (Nat × Int) :=
  (gridPoint? rank (ceilingPower rank - k)).map fun a => (a, ceilingPower rank - k)

theorem shortest_eq : shortest = fun rank =>
    ((List.range 20).findSome? (attempt? rank)).getD (0, 0) := by
  delta shortest
  rfl

theorem attempt?_eq_some {rank k a : Nat} {p : Int} (h : attempt? rank k = some (a, p)) :
    p = ceilingPower rank - k ∧ gridPoint? rank p = some a := by
  obtain ⟨c, hc, heq⟩ := Option.map_eq_some_iff.mp h
  obtain ⟨rfl, rfl⟩ := Prod.mk.inj heq
  exact ⟨rfl, hc⟩

theorem attempt?_eq_none {rank k : Nat} (h : attempt? rank k = none) :
    gridPoint? rank (ceilingPower rank - k) = none :=
  Option.map_eq_none_iff.mp h

/-- What is found first in a range comes after nothing. -/
theorem exists_of_findSome?_range {α : Type} {f : Nat → Option α} {n : Nat} {found : α}
    (h : (List.range n).findSome? f = some found) :
    ∃ k < n, f k = some found ∧ ∀ j < k, f j = none := by
  obtain ⟨before, k, after, hrange, hfound, hbefore⟩ := List.findSome?_eq_some_iff.mp h
  have hsorted : (before ++ k :: after).Pairwise (· < ·) := hrange ▸ List.pairwise_lt_range
  have hmem : ∀ j, j < n ↔ j ∈ before ++ k :: after := fun j => by rw [← hrange, List.mem_range]
  have hk : k < n := (hmem k).mpr (by simp)
  refine ⟨k, hk, hfound, fun j hj => hbefore j ?_⟩
  rw [List.pairwise_append, List.pairwise_cons] at hsorted
  rcases List.mem_append.mp ((hmem j).mp (hj.trans hk)) with hin | hin
  · exact hin
  · rcases List.mem_cons.mp hin with rfl | hafter
    · exact absurd hj (lt_irrefl _)
    · exact absurd (hsorted.2.1.1 j hafter) (not_lt.mpr hj.le)

/-- The decimal chosen is the point of the first grid looked at that has one. -/
theorem exists_shortest {rank : Nat} (hrank : rank ≠ 0) (h : rank < infinityRank) :
    ∃ k : Nat, (shortest rank).2 = ceilingPower rank - k ∧
      gridPoint? rank (shortest rank).2 = some (shortest rank).1 ∧
      ∀ j < k, gridPoint? rank (ceilingPower rank - (j : Nat)) = none := by
  have hshortest : shortest rank = ((List.range 20).findSome? (attempt? rank)).getD (0, 0) :=
    congrFun shortest_eq rank
  rcases hfound : (List.range 20).findSome? (attempt? rank) with _ | ⟨a, p⟩
  · -- the last grid has a point
    obtain ⟨c, hc⟩ := exists_gridPoint? hrank (readsBack_finest hrank h)
    have hnone := attempt?_eq_none (List.findSome?_eq_none_iff.mp hfound 19 (by decide))
    rw [Nat.cast_ofNat, hc] at hnone
    cases hnone
  · obtain ⟨k, -, hk, hbefore⟩ := exists_of_findSome?_range hfound
    obtain ⟨hp, hpoint⟩ := attempt?_eq_some hk
    rw [hfound, Option.getD_some] at hshortest
    rw [hshortest]
    exact ⟨k, hp, hpoint, fun j hj => attempt?_eq_none (hbefore j hj)⟩

/-- **The decimal chosen reads back.** -/
theorem readsBack_shortest {rank : Nat} (hrank : rank ≠ 0) (h : rank < infinityRank) :
    readsBack rank (shortest rank).1 (shortest rank).2 = true := by
  obtain ⟨k, -, hpoint, -⟩ := exists_shortest hrank h
  exact readsBack_of_gridPoint? hpoint

/-- **No decimal on a coarser grid reads back.** -/
theorem le_shortest_of_readsBack {rank a : Nat} {p : Int} (hrank : rank ≠ 0)
    (h : rank < infinityRank) (hreads : readsBack rank a p = true) : p ≤ (shortest rank).2 := by
  obtain ⟨k, hgrid, -, hcoarser⟩ := exists_shortest hrank h
  have hceiling := le_ceilingPower hrank h hreads
  by_contra hlt
  -- the grid is one of those looked at before
  have hnone := hcoarser (ceilingPower rank - p).toNat (by omega)
  have hp : ceilingPower rank - ((ceilingPower rank - p).toNat : ℕ) = p := by omega
  obtain ⟨c, hc⟩ := exists_gridPoint? hrank hreads
  rw [hp, hc] at hnone
  cases hnone

/-! ### Decimals of few places -/

/-- A number that is not negative is a whole number of units of its last place. -/
theorem exists_eq_mul_zpow {q : ℚ} {k : Nat} (h : HasPlaces q k) (hq : 0 ≤ q) :
    ∃ a : Nat, q = a * 10 ^ (-(k : Int)) := by
  obtain ⟨z, hz⟩ := h
  have hpow : (0 : ℚ) < 10 ^ k := by positivity
  have hnonneg : 0 ≤ z := by
    have hproduct : 0 ≤ q * 10 ^ k := by positivity
    rw [hz] at hproduct
    exact_mod_cast hproduct
  obtain ⟨a, rfl⟩ := Int.eq_ofNat_of_zero_le hnonneg
  refine ⟨a, ?_⟩
  rw [zpow_neg, zpow_natCast, ← div_eq_mul_inv, eq_div_iff hpow.ne', hz, Int.cast_natCast]

/-- On a grid that is coarser, or the same, a number has no more places. -/
theorem hasPlaces_mul_zpow (a : Nat) {p : Int} {k : Nat} (h : -(k : Int) ≤ p) :
    HasPlaces ((a : ℚ) * 10 ^ p) k := by
  obtain ⟨j, hj⟩ : ∃ j : Nat, p + k = j := ⟨(p + k).toNat, by omega⟩
  refine ⟨a * 10 ^ j, ?_⟩
  rw [mul_assoc, ← zpow_natCast, ← zpow_add₀ (by norm_num), hj, zpow_natCast]
  push_cast
  rfl

/-- **A number of few places in the interval is the decimal chosen**: its own grid has been found
worth a look, so the grid of the decimal chosen is no finer, and on one grid the interval has room
for one number only. -/
theorem shortest_eq_of_covers {rank k : Nat} {q : ℚ} (hrank : rank ≠ 0) (h : rank < infinityRank)
    (hcovers : Covers rank q) (hq : 0 ≤ q) (hplaces : HasPlaces q k)
    (hstep : 2 * ((stepAt rank : ℚ) / (2 * unitsPerOne)) < 1 / 10 ^ k) :
    ((shortest rank).1 : ℚ) * 10 ^ (shortest rank).2 = q := by
  have hshortest := readsBack_iff.mp (readsBack_shortest hrank h)
  have hgrid : -(k : Int) ≤ (shortest rank).2 := by
    obtain ⟨a, rfl⟩ := exists_eq_mul_zpow hplaces hq
    exact le_shortest_of_readsBack hrank h (readsBack_iff.mpr hcovers)
  have hnear := hshortest.abs_sub_le hrank
  have hnear' := hcovers.abs_sub_le hrank
  refine (hasPlaces_mul_zpow _ hgrid).eq_of_abs_sub_lt hplaces ?_
  generalize ((shortest rank).1 : ℚ) * 10 ^ (shortest rank).2 = r at hnear ⊢
  have htriangle := abs_sub_le r (magnitudeAt rank) q
  rw [abs_sub_comm (magnitudeAt rank)] at htriangle
  linarith

end PostfixCalculator.Binary64
