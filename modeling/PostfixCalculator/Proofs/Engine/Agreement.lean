import PostfixCalculator.Proofs.Decimal.RoundTrip
import PostfixCalculator.Proofs.Engine.Errors

/-!
# How far the two backends agree

For a sum, a difference or a product of operands that are not large, the binary backend strays from
the exact result by what is lost in reading the operands, in rounding the result and in writing it,
which is far less than the ninth decimal place.  Then the text is cut.  The exact result has no
further places, so its own cut takes nothing away; but a binary result that lies just below a short
decimal loses a whole unit of the last place kept.  So the two texts differ by next to nothing, or
by one such unit where the number that the binary backend computes is nearer to zero than the exact
result and is not the one that this is read as.  Whole operands lose nothing at all.

## Main definitions

* `strayBound` — how far the text of the binary result can lie from the exact result before the cut.
* `LosesUnit R e r k` — what is written lacks a unit of the last place kept.

## Main results

* `exists_applyBinary64` — the binary result before it is written.
* `value_spelling_cut_cases`, `abs_value_spelling_cut_sub_le`, `value_spelling_cut_eq` — the result
  after the cut, written again.
* `Engine.operate_backends_agree` — **both backends succeed, and differ by a unit of the ninth place
  at most unless the binary result has lost a unit of the last place kept**.
-/

namespace PostfixCalculator

open Decimal

namespace Backend

variable {op : Operator} {x y e z : ℚ} {X Y R : Binary64}

/-- How far the text of a binary result can lie from the exact result before the cut.  In units of
`2 ^ -53`, twice `1001 * 1002` is the error that the operands bring into a product, and
`1001 * 1001 + 2` is lost in rounding it and again in writing it. -/
def strayBound : ℚ := 4010010 / 2 ^ 53

/-- The number `r` that is written lacks a unit of the last of `k` places of the exact result `e`. -/
structure LosesUnit (R : Binary64) (e r : ℚ) (k : Nat) : Prop where
  abs_sub_eq : |e - r| = 1 / 10 ^ k
  abs_lt : |r| < |e|
  /-- The number `R` that was computed lies on the side of zero, too. -/
  abs_computed_lt : |R.value| < |e|
  /-- It is not the number that the exact result is read as. -/
  not_read_as : ∀ n : Literal, n.value = e → Binary64.ofLiteral n ≠ R

/-- Numbers that are not large lie far below the bound of the finite ones. -/
theorem lt_overflowBound_of_le {q : ℚ} (h : |q| ≤ 2 ^ 50) : |q| < Binary64.overflowBound := by
  have hunits : 2 ^ 50 * Binary64.unitsPerOne < Binary64.overflowUnits := by decide +kernel
  refine h.trans_lt ?_
  rw [Binary64.overflowBound, lt_div_iff₀ Binary64.unitsPerOne_pos']
  exact_mod_cast hunits

/-- An operand that is not large is read with a small error. -/
theorem abs_value_sub_le_of_isRounded (h : X.IsRounded x) (hx : |x| ≤ 1000) :
    |X.value - x| ≤ 1002 / 2 ^ 53 ∧ |X.value| ≤ 1001 := by
  have hstep := h.halfStep_le (hx.trans (by norm_num))
  have htriangle := abs_sub_abs_le_abs_sub X.value x
  have herror := h.2
  constructor <;> linarith

/-- **The binary result before it is written**: a number rounded from the exact result of the
operands as they are read, which is close to that of the operands as they are written. -/
theorem exists_applyBinary64 (hop : op ≠ .divide) (hX : X.IsRounded x) (hY : Y.IsRounded y)
    (hx : |x| ≤ 1000) (hy : |y| ≤ 1000) (he : applyRat op x y = .ok e) :
    ∃ R z, applyBinary64 op X Y = .ok R ∧ applyRat op X.value Y.value = .ok z ∧ R.IsRounded z ∧
      |z| ≤ 1001 * 1001 ∧ |z - e| ≤ 2006004 / 2 ^ 53 := by
  obtain ⟨herrorX, hlargeX⟩ := abs_value_sub_le_of_isRounded hX hx
  obtain ⟨herrorY, hlargeY⟩ := abs_value_sub_le_of_isRounded hY hy
  cases op with
  | plus =>
    cases he
    have hz : |X.value + Y.value| ≤ 1001 * 1001 := (abs_add_le _ _).trans (by linarith)
    obtain ⟨R, hR, hround⟩ :=
      Binary64.exists_add hX.1 hY.1 (lt_overflowBound_of_le (hz.trans (by norm_num)))
    refine ⟨R, _, ?_, rfl, hround, hz, ?_⟩
    · simp [applyBinary64, hR, hround.1]
    · rw [add_sub_add_comm]
      exact (abs_add_le _ _).trans (by linarith)
  | minus =>
    cases he
    have hz : |X.value - Y.value| ≤ 1001 * 1001 := (abs_sub _ _).trans (by linarith)
    obtain ⟨R, hR, hround⟩ :=
      Binary64.exists_sub hX.1 hY.1 (lt_overflowBound_of_le (hz.trans (by norm_num)))
    refine ⟨R, _, ?_, rfl, hround, hz, ?_⟩
    · simp [applyBinary64, hR, hround.1]
    · rw [sub_sub_sub_comm]
      exact (abs_sub _ _).trans (by linarith)
  | times =>
    cases he
    have hz : |X.value * Y.value| ≤ 1001 * 1001 := by
      rw [abs_mul]
      exact mul_le_mul hlargeX hlargeY (abs_nonneg _) (by norm_num)
    obtain ⟨R, hR, hround⟩ :=
      Binary64.exists_mul hX.1 hY.1 (lt_overflowBound_of_le (hz.trans (by norm_num)))
    refine ⟨R, _, ?_, rfl, hround, hz, ?_⟩
    · simp [applyBinary64, hR, hround.1]
    · -- the error of one factor at a time
      have hsplit : X.value * Y.value - x * y =
          X.value * (Y.value - y) + (X.value - x) * y := by ring
      have hleft : |X.value * (Y.value - y)| ≤ 1001 * (1002 / 2 ^ 53) := by
        rw [abs_mul]
        exact mul_le_mul hlargeX herrorY (abs_nonneg _) (by norm_num)
      have hright : |(X.value - x) * y| ≤ 1002 / 2 ^ 53 * 1000 := by
        rw [abs_mul]
        exact mul_le_mul herrorX hy (abs_nonneg _) (by norm_num)
      rw [hsplit]
      exact (abs_add_le _ _).trans (by linarith)
  | divide => exact absurd rfl hop

/-- The text of the result, before the cut. -/
theorem abs_value_spelling_sub_le_strayBound (hR : R.IsRounded z) (hz : |z| ≤ 1001 * 1001)
    (hze : |z - e| ≤ 2006004 / 2 ^ 53) :
    |R.spelling.value - e| ≤ strayBound ∧ |R.spelling.value| ≤ 1002002 := by
  have hstep := hR.halfStep_le (hz.trans (by norm_num))
  have htext := Binary64.abs_value_spelling_sub_le hR.1
  have hround := hR.2
  have hsum := abs_sub_le R.spelling.value R.value z
  have htotal := abs_sub_le R.spelling.value z e
  have hsize := abs_sub_abs_le_abs_sub R.spelling.value z
  rw [strayBound]
  constructor <;> linarith

/-- The cut number is not large, so what is read from it has small steps. -/
theorem isRounded_of_cut (hsize : |R.spelling.value| ≤ 1002002) {k : Nat} {n : Literal}
    (hn : n.value = cut R.spelling.value k) :
    (Binary64.ofLiteral n).IsRounded n.value ∧
      (Binary64.ofLiteral n).halfStep ≤ 1002004 / 2 ^ 53 := by
  have hsizeCut : |n.value| ≤ 1002002 := hn ▸ (abs_cut_le _ k).trans hsize
  have hround : (Binary64.ofLiteral n).IsRounded n.value :=
    Binary64.isRounded_ofLiteral (lt_overflowBound_of_le (hsizeCut.trans (by norm_num)))
  have hstep := hround.halfStep_le (hsizeCut.trans (by norm_num))
  exact ⟨hround, by linarith⟩

/-- **The result after the cut, written again, where a unit of the last place kept is not small**:
the cut number is written as it is, so it is the exact result or lacks a unit of it. -/
theorem value_spelling_cut_cases (hR : R.IsRounded z) (hz : |z| ≤ 1001 * 1001)
    (hze : |z - e| ≤ 2006004 / 2 ^ 53) {k : Nat} (hk : k ≤ 9) (he : HasPlaces e k) {n : Literal}
    (hn : n.value = cut R.spelling.value k) :
    (Binary64.ofLiteral n).spelling.value = e ∨
      LosesUnit R e (Binary64.ofLiteral n).spelling.value k := by
  obtain ⟨hstray, hsize⟩ := abs_value_spelling_sub_le_strayBound hR hz hze
  obtain ⟨hround, hstep⟩ := isRounded_of_cut hsize hn
  have hunit : (1 : ℚ) / 10 ^ 9 ≤ 1 / 10 ^ k :=
    one_div_le_one_div_of_le (by positivity) (pow_le_pow_right₀ (by norm_num) hk)
  have hwritten : (Binary64.ofLiteral n).spelling.value = cut R.spelling.value k :=
    hn ▸ Binary64.value_spelling_ofLiteral hround.1 (hn ▸ hasPlaces_cut _ k) (by linarith)
  have hclose : |R.spelling.value - e| < 1 / 10 ^ k := by
    rw [strayBound] at hstray
    linarith
  rw [hwritten]
  rcases cut_eq_or_abs_lt he hclose with heq | ⟨hlost, hnearer, htext⟩
  · exact .inl heq
  · -- the text lies nearer to zero than the exact result, so that is not what it was made from
    have hstepR : 2 * R.halfStep < 1 / 10 ^ k := by
      linarith [hR.halfStep_le (hz.trans (by norm_num))]
    refine .inr ⟨abs_sub_comm e _ ▸ hlost, hnearer, not_le.mp fun hle => ?_, ?_⟩
    · exact htext.not_ge (Binary64.abs_le_abs_value_spelling hR.1 he hstepR hle)
    · rintro m rfl rfl
      rw [Binary64.value_spelling_ofLiteral hR.1 he hstepR] at htext
      exact htext.false

/-- **The result after the cut, written again, where a unit of the last place kept is small.** -/
theorem abs_value_spelling_cut_sub_le (hR : R.IsRounded z) (hz : |z| ≤ 1001 * 1001)
    (hze : |z - e| ≤ 2006004 / 2 ^ 53) {k : Nat} (hk : 10 ≤ k) {n : Literal}
    (hn : n.value = cut R.spelling.value k) :
    |(Binary64.ofLiteral n).spelling.value - e| ≤ 1 / 10 ^ 9 := by
  obtain ⟨hstray, hsize⟩ := abs_value_spelling_sub_le_strayBound hR hz hze
  obtain ⟨hround, hstep⟩ := isRounded_of_cut hsize hn
  have hunit : (1 : ℚ) / 10 ^ k ≤ 1 / 10 ^ 10 :=
    one_div_le_one_div_of_le (by positivity) (pow_le_pow_right₀ (by norm_num) hk)
  have hcut : |n.value - R.spelling.value| < 1 / 10 ^ k := hn ▸ abs_cut_sub_lt _ k
  have htext := Binary64.abs_value_spelling_sub_le hround.1
  have hreread := hround.2
  rw [strayBound] at hstray
  -- written, read, cut, and written before
  calc |(Binary64.ofLiteral n).spelling.value - e|
      ≤ |(Binary64.ofLiteral n).spelling.value - n.value| + |n.value - e| := abs_sub_le _ _ _
    _ ≤ |(Binary64.ofLiteral n).spelling.value - (Binary64.ofLiteral n).value| +
          |(Binary64.ofLiteral n).value - n.value| +
          (|n.value - R.spelling.value| + |R.spelling.value - e|) :=
        add_le_add (abs_sub_le _ _ _) (abs_sub_le _ _ _)
    _ ≤ 1 / 10 ^ 9 := by linarith

/-- **A whole result after the cut, written again**, is the exact result. -/
theorem value_spelling_cut_eq (hR : R.IsRounded e) (hsize : |e| ≤ 1001 * 1001)
    (he : HasPlaces e 0) {k : Nat} {n : Literal} (hn : n.value = cut R.spelling.value k)
    (hround : (Binary64.ofLiteral n).IsRounded n.value) :
    (Binary64.ofLiteral n).spelling.value = e := by
  have hlarge : |e| ≤ 2 ^ 50 := hsize.trans (by norm_num)
  have hcut : n.value = e := by
    rw [hn, hR.value_spelling_eq he hlarge, (he.mono k.zero_le).cut_eq]
  rw [hcut] at hround
  exact hround.value_spelling_eq he hlarge

/-- Whole operands have a whole result. -/
theorem hasPlaces_zero_applyRat (hop : op ≠ .divide) (hx : HasPlaces x 0) (hy : HasPlaces y 0)
    (he : applyRat op x y = .ok e) : HasPlaces e 0 := by
  cases op with
  | plus => cases he; exact hx.add hy
  | minus => cases he; exact hx.sub hy
  | times => cases he; exact hx.mul hy
  | divide => exact absurd rfl hop

/-- A sum, a difference or a product of operands that are not large, by the binary backend. -/
theorem exists_applyApproximate_near (hop : op ≠ .divide) {a b : Literal} (ha : |a.value| ≤ 1000)
    (hb : |b.value| ≤ 1000) (he : applyRat op a.value b.value = .ok e) {k : Nat}
    (hplaces : HasPlaces e k) :
    ∃ R v r, applyBinary64 op (.ofLiteral a) (.ofLiteral b) = .ok R ∧
      applyApproximate op a b k = .ok v ∧ Denotes v.text r ∧
      (|e - r| ≤ 1 / 10 ^ 9 ∨ LosesUnit R e r k) ∧
      (HasPlaces a.value 0 → HasPlaces b.value 0 → r = e) := by
  have hroundA := Binary64.isRounded_ofLiteral (lt_overflowBound_of_le (ha.trans (by norm_num)))
  have hroundB := Binary64.isRounded_ofLiteral (lt_overflowBound_of_le (hb.trans (by norm_num)))
  obtain ⟨R, z, hR, hread, hround, hz, hze⟩ := exists_applyBinary64 hop hroundA hroundB ha hb he
  obtain ⟨n, hparse, hn⟩ := Binary64.parse?_truncate hround.1 k
  obtain ⟨hroundN, -⟩ := isRounded_of_cut (abs_value_spelling_sub_le_strayBound hround hz hze).2 hn
  have htruncate : truncate? R k = some (.ofLiteral n) := hparse
  refine ⟨R, .approximate (.ofLiteral n), (Binary64.ofLiteral n).spelling.value, hR, ?_,
    Binary64.denotes_normalize_text hroundN.1, ?_, fun hwholeA hwholeB => ?_⟩
  · rw [applyApproximate, hR]
    dsimp only
    rw [htruncate]
  · rcases Nat.lt_or_ge 9 k with hk | hk
    · rw [abs_sub_comm]
      exact .inl (abs_value_spelling_cut_sub_le hround hz hze hk hn)
    · rcases value_spelling_cut_cases hround hz hze hk hplaces hn with heq | hloses
      · rw [heq, sub_self, abs_zero]
        exact .inl (by positivity)
      · exact .inr hloses
  · -- whole operands are read as they are written
    rw [hroundA.value_eq hwholeA (ha.trans (by norm_num)),
      hroundB.value_eq hwholeB (hb.trans (by norm_num)), he, Except.ok.injEq] at hread
    subst hread
    exact value_spelling_cut_eq hround hz (hasPlaces_zero_applyRat hop hwholeA hwholeB he) hn
      hroundN

/-- The exact result has no further places than an operation keeps. -/
theorem hasPlaces_applyRat (hop : op ≠ .divide) {a b : Literal}
    (he : applyRat op a.value b.value = .ok e) (least : Nat) :
    HasPlaces e (placesFor op a b least) := by
  refine HasPlaces.mono ?_ (neededPlaces_le_placesFor op a b least)
  cases op with
  | plus => cases he; exact hasPlaces_add a b
  | minus => cases he; exact hasPlaces_sub a b
  | times => cases he; exact hasPlaces_mul a b
  | divide => exact absurd rfl hop

end Backend

/-- An operation keeps the places asked for at least. -/
theorem le_placesFor (op : Operator) (a b : Literal) (least : Nat) :
    least ≤ placesFor op a b least := by
  unfold placesFor
  split
  · cases op <;> dsimp only <;> omega
  · exact Nat.le_refl _

namespace Engine

/-- A literal without digits after the point of its flat form denotes a whole number. -/
theorem hasPlaces_zero_of_hasFraction {n : Literal} (h : n.hasFraction = false) :
    HasPlaces n.value 0 := by
  have hlength : n.fractionLength = 0 := Nat.eq_zero_of_not_pos (of_decide_eq_false h)
  exact hlength ▸ n.hasPlaces_value

/-- **Both backends succeed on a sum, a difference or a product** of operands of at most a thousand,
at every precision.  The numbers that they write differ by a unit of the ninth place at most, unless
the binary one lacks a unit of the last place kept; that happens only where the number `R` that the
binary backend computes lies nearer to zero than the exact result and is not the one that this is
read as.  From nine places on, they differ by a unit of the ninth place at most in any case.  They
are equal at every precision where both operands are whole numbers, which they are without digits
after the point. -/
theorem operate_backends_agree (precision : Nat) (hprecision : precision ≤ maxPrecision)
    (op : Operator) (hop : op ≠ .divide) (a b : String) (x y : Literal)
    (ha : Literal.parse? a = some x) (hb : Literal.parse? b = some y)
    (hx : |x.value| ≤ 1000) (hy : |y.value| ≤ 1000) :
    ∃ v w q r R,
      (ofConfig { precision, backend := .exact }).operate (some a) (some b) op.symbol = .ok v ∧
      (ofConfig { precision, backend := .binary }).operate (some a) (some b) op.symbol = .ok w ∧
      Denotes v.text q ∧ Denotes w.text r ∧
      Backend.applyBinary64 op (.ofLiteral x) (.ofLiteral y) = .ok R ∧
      (|q - r| ≤ 1 / 10 ^ 9 ∨ Backend.LosesUnit R q r (placesFor op x y precision)) ∧
      (9 ≤ precision → |q - r| ≤ 1 / 10 ^ 9) ∧
      (HasPlaces x.value 0 → HasPlaces y.value 0 → q = r) ∧
      (x.hasFraction = false → y.hasFraction = false → q = r) := by
  have hbound : min precision maxPrecision = precision := min_eq_left hprecision
  have hdivide : ¬(op = .divide && y.isZero) = true := by simp [hop]
  obtain ⟨t, q, hq, hexact, hcanonical⟩ :=
    (ofConfig { precision, backend := .exact }).exists_operate_exact rfl (Operator.mem_all op) ha hb
      fun h => absurd h hop
  have hrat : Backend.applyRat op x.value y.value = .ok q := by
    cases op with
    | plus => cases hq; rfl
    | minus => cases hq; rfl
    | times => cases hq; rfl
    | divide => exact absurd rfl hop
  obtain ⟨R, w, r, hR, hbinary, hdenotes, hnear, hwhole⟩ := Backend.exists_applyApproximate_near hop
    hx hy hrat (Backend.hasPlaces_applyRat hop hrat precision)
  have heq : HasPlaces x.value 0 → HasPlaces y.value 0 → q = r := fun hwholeX hwholeY =>
    (hwhole hwholeX hwholeY).symm
  refine ⟨.exact t, w, q, r, R, hexact, ?_, hcanonical.denotes, hdenotes, hR, hnear,
    fun hnine => ?_, heq, fun hfractionX hfractionY => ?_⟩
  · rw [operate_eq_apply (Operator.mem_all op) ha hb, if_neg hdivide]
    show Backend.applyApproximate op x y (placesFor op x y (min precision maxPrecision)) = .ok w
    rw [hbound]
    exact hbinary
  · -- the places kept are nine or more
    have hunit : (1 : ℚ) / 10 ^ placesFor op x y precision ≤ 1 / 10 ^ 9 :=
      one_div_le_one_div_of_le (by positivity)
        (pow_le_pow_right₀ (by norm_num) (hnine.trans (le_placesFor op x y precision)))
    rcases hnear with hnear | hloses
    · exact hnear
    · exact hloses.abs_sub_eq.trans_le hunit
  · exact heq (hasPlaces_zero_of_hasFraction hfractionX) (hasPlaces_zero_of_hasFraction hfractionY)

/-- The sum of a tenth and seven tenths, at no places and at nine, and that of two whole numbers at
no places. -/
theorem operate_backends_agree_tenths :
    (∃ v w q r R,
      (ofConfig { precision := 0, backend := .exact }).operate (some "0.1") (some "0.7") "+" =
        .ok v ∧
      (ofConfig { precision := 0, backend := .binary }).operate (some "0.1") (some "0.7") "+" =
        .ok w ∧
      Denotes v.text q ∧ Denotes w.text r ∧
      Backend.applyBinary64 .plus (.ofLiteral ⟨false, [0], some [1], none, by decide⟩)
        (.ofLiteral ⟨false, [0], some [7], none, by decide⟩) = .ok R ∧
      (|q - r| ≤ 1 / 10 ^ 9 ∨ Backend.LosesUnit R q r 2)) ∧
    (∃ v w q r,
      (ofConfig { precision := 9, backend := .exact }).operate (some "0.1") (some "0.7") "+" =
        .ok v ∧
      (ofConfig { precision := 9, backend := .binary }).operate (some "0.1") (some "0.7") "+" =
        .ok w ∧
      Denotes v.text q ∧ Denotes w.text r ∧ |q - r| ≤ 1 / 10 ^ 9) ∧
    ∃ v w q,
      (ofConfig { precision := 0, backend := .exact }).operate (some "-12") (some "9") "*" =
        .ok v ∧
      (ofConfig { precision := 0, backend := .binary }).operate (some "-12") (some "9") "*" =
        .ok w ∧
      Denotes v.text q ∧ Denotes w.text q := by
  have ha : Literal.parse? "0.1" = some ⟨false, [0], some [1], none, by decide⟩ := by decide +kernel
  have hb : Literal.parse? "0.7" = some ⟨false, [0], some [7], none, by decide⟩ := by decide +kernel
  refine ⟨?_, ?_, ?_⟩
  · obtain ⟨v, w, q, r, R, hv, hw, hq, hr, hR, hnear, -⟩ :=
      operate_backends_agree 0 (by decide) .plus (by decide) "0.1" "0.7" _ _ ha hb
        (by decide +kernel) (by decide +kernel)
    exact ⟨v, w, q, r, R, hv, hw, hq, hr, hR, hnear⟩
  · obtain ⟨v, w, q, r, -, hv, hw, hq, hr, -, -, hnine, -⟩ :=
      operate_backends_agree 9 (by decide) .plus (by decide) "0.1" "0.7" _ _ ha hb
        (by decide +kernel) (by decide +kernel)
    exact ⟨v, w, q, r, hv, hw, hq, hr, hnine (le_refl 9)⟩
  · obtain ⟨v, w, q, r, -, hv, hw, hq, hr, -, -, -, -, hwhole⟩ :=
      operate_backends_agree 0 (by decide) .times (by decide) "-12" "9"
        ⟨true, [1, 2], none, none, by decide⟩ ⟨false, [9], none, none, by decide⟩
        (by decide +kernel) (by decide +kernel) (by decide +kernel) (by decide +kernel)
    obtain rfl := hwhole (by decide +kernel) (by decide +kernel)
    exact ⟨v, w, q, hv, hw, hq, hr⟩

/-- At no places the binary sum of a tenth and seven tenths, which lies just below eight tenths, is
cut to `0.79`, while the exact sum keeps its digit. -/
theorem operate_backends_differ_tenths :
    ∃ x y : Literal, Literal.parse? "0.1" = some x ∧ Literal.parse? "0.7" = some y ∧
      |x.value| ≤ 1000 ∧ |y.value| ≤ 1000 ∧ ∃ v w,
        (ofConfig { precision := 0, backend := .exact }).operate (some "0.1") (some "0.7") "+" =
          .ok v ∧
        (ofConfig { precision := 0, backend := .binary }).operate (some "0.1") (some "0.7") "+" =
          .ok w ∧
        Denotes v.text (8 / 10) ∧ Denotes w.text (79 / 100) ∧
        1 / 10 ^ 9 < |(8 / 10 - 79 / 100 : ℚ)| := by
  have hcut : Value.text (.approximate (.ofLiteral ⟨false, [0], some [7, 9], none, by decide⟩)) =
      "0.79" := by
    decide +kernel
  refine ⟨⟨false, [0], some [1], none, by decide⟩, ⟨false, [0], some [7], none, by decide⟩,
    by decide +kernel, by decide +kernel, by decide +kernel, by decide +kernel, .exact "0.8",
    .approximate (.ofLiteral ⟨false, [0], some [7, 9], none, by decide⟩), by decide +kernel,
    by decide +kernel, ?_, ?_, by norm_num⟩
  · exact ⟨⟨false, [0], some [8], none, by decide⟩, by decide +kernel, by decide +kernel⟩
  · rw [hcut]
    exact ⟨⟨false, [0], some [7, 9], none, by decide⟩, by decide +kernel, by decide +kernel⟩

end Engine

end PostfixCalculator
