import PostfixCalculator.Proofs.Decimal.Canonical

/-!
# Writing a rational number

A number is written by its scaled whole part, which drops the further places for either sign.  So
the plain form of what is written is the canonical text of the number cut to its places, and no
digit is lost where the number has no further places.

## Main definitions

* `HasPlaces r k` — the number `r` has at most `k` decimal places.
* `scaledSpelling s k` — the spelling of `s / 10 ^ k` with exactly `k` places.

## Main results

* `cut_eq_scaled` — the number that is written is the cut one.
* `isCanonicalText_ofRat` — the plain form of a written number is canonical.
* `HasPlaces.cut_eq` — a number with few enough places is not changed by a cut.
* `abs_cut_le`, `abs_cut_sub_lt` — a cut never leads away from zero, and not far towards it.
* `cut_cut` — of two cuts after one another only the shorter one counts.
-/

namespace PostfixCalculator.Decimal

/-! ### The text of a scaled number -/

/-- The spelling of `s / 10 ^ places`, with exactly `places` places. -/
def scaledSpelling (s : Int) (places : Nat) : Spelling where
  negative := decide (s < 0)
  whole := Numeral.ofNat (s.natAbs / 10 ^ places)
  places := if places = 0 then none else some (Numeral.padded places (s.natAbs % 10 ^ places))

theorem isTrimmed_scaledSpelling (s : Int) (places : Nat) : (scaledSpelling s places).IsTrimmed :=
  Numeral.isTrimmed_ofNat _

theorem chars_scaledSpelling (s : Int) (places : Nat) :
    scaledChars s places = (scaledSpelling s places).chars := by
  rw [Spelling.chars_eq]
  unfold scaledChars scaledSpelling
  by_cases hs : s < 0 <;> by_cases hp : places = 0 <;> simp [hs, hp, Spelling.pointChars]

/-- A scaled number is written as its spelling. -/
theorem text_scaledSpelling (s : Int) (places : Nat) :
    (scaledSpelling s places).text = ofScaled s places := by
  rw [ofScaled, chars_scaledSpelling, Spelling.text]

theorem length_placeDigits_scaledSpelling (s : Int) (places : Nat) :
    (scaledSpelling s places).placeDigits.length = places := by
  unfold scaledSpelling Spelling.placeDigits
  dsimp only
  split
  · next hp => simp [hp]
  · next hp =>
    exact Numeral.length_padded (Nat.pos_of_ne_zero hp) (Nat.mod_lt _ (by positivity))

theorem horner_scaledSpelling (s : Int) (places : Nat) :
    Numeral.horner ((scaledSpelling s places).whole ++ (scaledSpelling s places).placeDigits) =
      s.natAbs := by
  rw [Numeral.horner_append, length_placeDigits_scaledSpelling]
  unfold scaledSpelling Spelling.placeDigits
  dsimp only
  rw [Numeral.horner_ofNat]
  split
  · next hp => simp [hp]
  · rw [Option.getD_some, Numeral.horner_padded]
    exact Nat.div_add_mod' _ _

theorem value_scaledSpelling (s : Int) (places : Nat) :
    (scaledSpelling s places).value = s / 10 ^ places := by
  rw [Spelling.value_eq, Spelling.magnitude, horner_scaledSpelling,
    length_placeDigits_scaledSpelling, scaledSpelling, Nat.cast_natAbs]
  by_cases hs : s < 0
  · simp [hs, abs_of_neg hs, neg_div]
  · simp [hs, abs_of_nonneg (not_lt.mp hs)]

/-! ### Cutting a number -/

/-- The number `r` has at most `k` decimal places. -/
def HasPlaces (r : ℚ) (k : Nat) : Prop := ∃ z : ℤ, r * 10 ^ k = z

theorem HasPlaces.mono {r : ℚ} {j k : Nat} (h : HasPlaces r j) (hjk : j ≤ k) : HasPlaces r k := by
  obtain ⟨z, hz⟩ := h
  refine ⟨z * 10 ^ (k - j), ?_⟩
  have hsplit : (10 : ℚ) ^ k = 10 ^ j * 10 ^ (k - j) := by
    rw [← pow_add, Nat.add_sub_cancel' hjk]
  rw [hsplit, ← mul_assoc, hz]
  push_cast
  rfl

theorem HasPlaces.add {r q : ℚ} {k : Nat} (hr : HasPlaces r k) (hq : HasPlaces q k) :
    HasPlaces (r + q) k := by
  obtain ⟨z, hz⟩ := hr
  obtain ⟨w, hw⟩ := hq
  exact ⟨z + w, by rw [add_mul, hz, hw]; push_cast; rfl⟩

theorem HasPlaces.sub {r q : ℚ} {k : Nat} (hr : HasPlaces r k) (hq : HasPlaces q k) :
    HasPlaces (r - q) k := by
  obtain ⟨z, hz⟩ := hr
  obtain ⟨w, hw⟩ := hq
  exact ⟨z - w, by rw [sub_mul, hz, hw]; push_cast; rfl⟩

theorem HasPlaces.abs {r : ℚ} {k : Nat} (h : HasPlaces r k) : HasPlaces |r| k := by
  obtain ⟨z, hz⟩ := h
  have hpow : (0 : ℚ) < 10 ^ k := by positivity
  exact ⟨|z|, by rw [Int.cast_abs, ← hz, abs_mul, abs_of_pos hpow]⟩

/-- The places of a product are those of both factors together. -/
theorem HasPlaces.mul {r q : ℚ} {j k : Nat} (hr : HasPlaces r j) (hq : HasPlaces q k) :
    HasPlaces (r * q) (j + k) := by
  obtain ⟨z, hz⟩ := hr
  obtain ⟨w, hw⟩ := hq
  exact ⟨z * w, by rw [pow_add, mul_mul_mul_comm, hz, hw]; push_cast; rfl⟩

/-- The places of a spelling bound those of its number. -/
theorem Spelling.hasPlaces_value (s : Spelling) : HasPlaces s.value s.placeDigits.length := by
  have hpow : (10 : ℚ) ^ s.placeDigits.length ≠ 0 := by positivity
  rw [value_eq, magnitude]
  cases s.negative
  · exact ⟨Numeral.horner (s.whole ++ s.placeDigits), by simp [hpow]⟩
  · exact ⟨-Numeral.horner (s.whole ++ s.placeDigits), by simp [hpow]⟩

/-- The whole part of a scaled number is the one that a cut takes. -/
theorem scaled_eq (r : ℚ) (places : Nat) :
    scaled r places = if r * 10 ^ places < 0 then (r * 10 ^ places).ceil
      else (r * 10 ^ places).floor := by
  have hden : (0 : ℚ) < r.den := by exact_mod_cast r.den_pos
  have hq : r * 10 ^ places = ((r.num * (10 ^ places : ℕ) : ℤ) : ℚ) / (r.den : ℕ) := by
    rw [eq_div_iff hden.ne', mul_right_comm, Rat.mul_den_eq_num]
    push_cast
    rfl
  have hneg : r * 10 ^ places < 0 ↔ r.num * (10 ^ places : ℕ) < 0 := by
    rw [hq, div_lt_iff₀ hden, zero_mul, Int.cast_lt_zero]
  have hfloor : ∀ n : ℤ, ((n : ℚ) / (r.den : ℕ)).floor = n / (r.den : ℤ) :=
    fun n => Rat.floor_intCast_div_natCast n r.den
  unfold scaled
  split
  · next h =>
    have hn := hneg.mp h
    rw [hq, Rat.ceil_eq_neg_floor_neg, ← neg_div, ← Int.cast_neg, hfloor,
      ← Int.tdiv_eq_ediv_of_nonneg (by omega), Int.neg_tdiv, neg_neg]
  · next h =>
    have hn := mt hneg.mpr h
    rw [hq, hfloor, Int.tdiv_eq_ediv_of_nonneg (by omega)]

theorem cut_eq_scaled (r : ℚ) (places : Nat) : cut r places = scaled r places / 10 ^ places := by
  unfold cut
  rw [scaled_eq, Rat.mkRat_eq_div]
  push_cast
  rfl

/-- A number with few enough places is not changed by a cut. -/
theorem HasPlaces.cut_eq {r : ℚ} {places : Nat} (h : HasPlaces r places) : cut r places = r := by
  obtain ⟨z, hz⟩ := h
  have hwhole : scaled r places = z := by
    rw [scaled_eq, hz, Rat.ceil_intCast, Rat.floor_intCast, ite_self]
  rw [cut_eq_scaled, hwhole, ← hz, mul_div_assoc, div_self (by positivity), mul_one]

theorem scaled_neg (r : ℚ) (places : Nat) : scaled (-r) places = -scaled r places := by
  unfold scaled
  rw [Rat.neg_num, Rat.neg_den, neg_mul, Int.neg_tdiv]

/-- Cutting a number and turning its sign come to the same in either order. -/
theorem cut_neg (r : ℚ) (places : Nat) : cut (-r) places = -cut r places := by
  rw [cut_eq_scaled, cut_eq_scaled, scaled_neg, Int.cast_neg, neg_div]

theorem cut_signed (negative : Bool) (r : ℚ) (places : Nat) :
    cut (signed negative r) places = signed negative (cut r places) := by
  cases negative
  · rfl
  · exact cut_neg r places

theorem cut_of_nonneg {r : ℚ} (hr : 0 ≤ r) (places : Nat) :
    cut r places = (r * 10 ^ places).floor / 10 ^ places := by
  have hscaled : ¬r * 10 ^ places < 0 := not_lt.mpr (by positivity)
  rw [cut_eq_scaled, scaled_eq, if_neg hscaled]

theorem cut_nonneg {r : ℚ} (hr : 0 ≤ r) (places : Nat) : 0 ≤ cut r places := by
  have hfloor : (0 : ℚ) ≤ (r * 10 ^ places).floor := by
    exact_mod_cast Rat.le_floor_iff.mpr (by push_cast; positivity)
  rw [cut_of_nonneg hr]
  positivity

/-- **A cut never leads away from zero.** -/
theorem abs_cut_le (r : ℚ) (places : Nat) : |cut r places| ≤ |r| := by
  -- turning the sign changes neither side
  wlog hr : 0 ≤ r generalizing r
  · have h := this (-r) (by linarith)
    rwa [cut_neg, abs_neg, abs_neg] at h
  have hpow : (0 : ℚ) < 10 ^ places := by positivity
  rw [abs_of_nonneg (cut_nonneg hr places), abs_of_nonneg hr, cut_of_nonneg hr, div_le_iff₀ hpow]
  exact Rat.floor_le _

/-- **Of two cuts in a row, the one that keeps fewer places counts.** -/
theorem cut_cut {j k : Nat} (hjk : j ≤ k) (r : ℚ) : cut (cut r k) j = cut r j := by
  -- turning the sign turns both sides
  wlog hr : 0 ≤ r generalizing r
  · have h := this (-r) (by linarith)
    rwa [cut_neg, cut_neg, cut_neg, neg_inj] at h
  have hdrop : ∀ q : ℚ, q * 10 ^ j = q * 10 ^ k / (10 ^ (k - j) : ℕ) := by
    intro q
    rw [eq_div_iff (by positivity), mul_assoc]
    push_cast
    rw [← pow_add, Nat.add_sub_cancel' hjk]
  have hwhole : cut r k * 10 ^ k = (r * 10 ^ k).floor := by
    rw [cut_of_nonneg hr, div_mul_cancel₀ _ (by positivity)]
  -- both floors are quotients of the whole part of `r * 10 ^ k`
  have hfloor : (r * 10 ^ k / (10 ^ (k - j) : ℕ)).floor =
      (r * 10 ^ k).floor / (10 ^ (k - j) : ℕ) :=
    Int.floor_div_natCast (r * 10 ^ k) (10 ^ (k - j))
  have hquotient : (((r * 10 ^ k).floor : ℚ) / (10 ^ (k - j) : ℕ)).floor =
      (r * 10 ^ k).floor / (10 ^ (k - j) : ℕ) :=
    Rat.floor_intCast_div_natCast _ _
  rw [cut_of_nonneg (cut_nonneg hr k), hdrop, hwhole, hquotient, cut_of_nonneg hr, hdrop r, hfloor]

theorem hasPlaces_cut (r : ℚ) (places : Nat) : HasPlaces (cut r places) places :=
  ⟨scaled r places, by rw [cut_eq_scaled, div_mul_cancel₀ _ (by positivity)]⟩

/-- **A cut takes away less than one unit of the last place kept.** -/
theorem abs_cut_sub_lt (r : ℚ) (places : Nat) : |cut r places - r| < 1 / 10 ^ places := by
  wlog hr : 0 ≤ r generalizing r
  · have h := this (-r) (by linarith)
    rwa [cut_neg, neg_sub_neg, abs_sub_comm] at h
  have hpow : (0 : ℚ) < 10 ^ places := by positivity
  have hle : ((r * 10 ^ places).floor : ℚ) ≤ r * 10 ^ places := Rat.floor_le _
  have hlt : r * 10 ^ places < ((r * 10 ^ places).floor : ℚ) + 1 := by
    exact_mod_cast Rat.lt_floor_add_one _
  rw [cut_of_nonneg hr, abs_sub_comm, abs_of_nonneg, lt_div_iff₀ hpow, sub_mul,
    div_mul_cancel₀ _ hpow.ne']
  · linarith
  · rwa [sub_nonneg, div_le_iff₀ hpow]

/-- Numbers of at most `k` places that differ by less than `j + 1` units of the last place differ by
at most `j` of them. -/
theorem HasPlaces.abs_sub_le {q r : ℚ} {j k : Nat} (hq : HasPlaces q k) (hr : HasPlaces r k)
    (h : |q - r| < (j + 1) / 10 ^ k) : |q - r| ≤ j / 10 ^ k := by
  obtain ⟨z, hz⟩ := (hq.sub hr).abs
  have hpow : (0 : ℚ) < 10 ^ k := by positivity
  rw [lt_div_iff₀ hpow, hz] at h
  rw [le_div_iff₀ hpow, hz]
  have hlt : z < (j : ℤ) + 1 := by exact_mod_cast h
  exact_mod_cast Int.lt_add_one_iff.mp hlt

/-- Such numbers are equal when they differ by less than one unit of the last place. -/
theorem HasPlaces.eq_of_abs_sub_lt {q r : ℚ} {k : Nat} (hq : HasPlaces q k) (hr : HasPlaces r k)
    (h : |q - r| < 1 / 10 ^ k) : q = r := by
  have hnone : |q - r| ≤ (0 : ℕ) / 10 ^ k := hq.abs_sub_le hr (by rwa [Nat.cast_zero, zero_add])
  rwa [Nat.cast_zero, zero_div, abs_nonpos_iff, sub_eq_zero] at hnone

/-- **The plain form of a written number is the canonical text of the number cut to its
places.** -/
theorem isCanonicalText_ofRat (r : ℚ) (places : Nat) :
    IsCanonicalText (normalize (ofRat r places)) (cut r places) := by
  have htext : ofRat r places = (scaledSpelling (scaled r places) places).text :=
    (text_scaledSpelling (scaled r places) places).symm
  rw [htext, cut_eq_scaled, ← value_scaledSpelling]
  exact isCanonicalText_normalize (isTrimmed_scaledSpelling _ _)

end PostfixCalculator.Decimal
