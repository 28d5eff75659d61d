import Mathlib
import PostfixCalculator.Numeral

/-!
# Numerals and the numbers they denote

A numeral of `n` digits denotes a number below `10 ^ n`, and each such number has one numeral of
`n` digits.  So a numeral is known from its length and its number; where no zero leads it, from its
number alone.

## Main definitions

* `Numeral.lowFirst ds` — the digits `ds` from the right, as numbers.
* `Numeral.trim ds` — the digits `ds` without leading zeros, the last digit kept.
* `Numeral.IsTrimmed ds` — `ds` is a zero standing alone, or begins with another digit.

## Main results

* `horner_eq_ofDigits` — a numeral denotes the number of its digits from the right.
* `horner_lt`, `horner_injective_of_length_eq` — the two facts above.
* `IsTrimmed.eq_of_horner_eq` — trimmed numerals of one number are equal.
* `isTrimmed_ofNat`, `length_padded` — the shapes of the digits that are written.
-/

namespace PostfixCalculator.Numeral

/-! ### Zeros at either end -/

@[simp] theorem horner_nil : horner [] = 0 := rfl

theorem horner_cons (d : Digit) (ds : List Digit) :
    horner (d :: ds) = d.val * 10 ^ ds.length + horner ds := by
  have h := horner_append [d] ds
  simpa [horner] using h

@[simp] theorem horner_replicate_zero (k : Nat) : horner (List.replicate k 0) = 0 := by
  induction k with
  | zero => rfl
  | succ k ih => simp [List.replicate_succ, horner_cons, ih]

/-- Zeros at the end multiply by powers of ten. -/
theorem horner_append_zeros (ds : List Digit) (k : Nat) :
    horner (ds ++ List.replicate k 0) = horner ds * 10 ^ k := by
  simp [horner_append]

/-- Zeros in front do not count. -/
theorem horner_zeros_append (ds : List Digit) (k : Nat) :
    horner (List.replicate k 0 ++ ds) = horner ds := by
  simp [horner_append]

theorem horner_eq_zero_iff {ds : List Digit} : horner ds = 0 ↔ ∀ d ∈ ds, d = 0 := by
  induction ds with
  | nil => simp
  | cons d ds ih =>
    have hpow : 10 ^ ds.length ≠ 0 := by positivity
    rw [horner_cons, Nat.add_eq_zero_iff, Nat.mul_eq_zero, ih, or_iff_left hpow,
      List.forall_mem_cons, Fin.ext_iff]
    rfl

/-! ### A numeral from its length and its number -/

/-- The digits of a numeral as numbers, the least significant first. -/
def lowFirst (ds : List Digit) : List Nat := (ds.map Fin.val).reverse

theorem length_lowFirst (ds : List Digit) : (lowFirst ds).length = ds.length := by
  rw [lowFirst, List.length_reverse, List.length_map]

theorem lt_ten_of_mem_lowFirst (ds : List Digit) : ∀ n ∈ lowFirst ds, n < 10 := by
  intro n hn
  obtain ⟨d, -, rfl⟩ := List.mem_map.mp (List.mem_reverse.mp hn)
  exact d.isLt

/-- Read from the left or from the right, a numeral denotes the same number. -/
theorem horner_eq_ofDigits (ds : List Digit) : horner ds = Nat.ofDigits 10 (lowFirst ds) := by
  have hstep : (fun n (d : Digit) => n * 10 + d.val) = fun n d => d.val + 10 * n :=
    funext₂ fun n d => by rw [mul_comm, add_comm]
  rw [horner, hstep, Nat.ofDigits_eq_foldr, lowFirst, List.foldr_reverse, List.foldl_map]
  rfl

/-- A numeral of `n` digits denotes a number below `10 ^ n`. -/
theorem horner_lt (ds : List Digit) : horner ds < 10 ^ ds.length := by
  rw [horner_eq_ofDigits, ← length_lowFirst]
  exact Nat.ofDigits_lt_base_pow_length (by decide) (lt_ten_of_mem_lowFirst ds)

/-- Numerals of one length that denote the same number are equal. -/
theorem horner_injective_of_length_eq {ds es : List Digit} (hlength : ds.length = es.length)
    (h : horner ds = horner es) : ds = es := by
  rw [horner_eq_ofDigits, horner_eq_ofDigits] at h
  have hlow : lowFirst ds = lowFirst es :=
    Nat.ofDigits_inj_of_len_eq (by decide) (by rwa [length_lowFirst, length_lowFirst])
      (lt_ten_of_mem_lowFirst ds) (lt_ten_of_mem_lowFirst es) h
  exact List.map_injective_iff.mpr Fin.val_injective (List.reverse_injective hlow)

/-- The digits above the last `k` are a quotient. -/
theorem mul_pow_add_div (a : Nat) {b k : Nat} (h : b < 10 ^ k) : (a * 10 ^ k + b) / 10 ^ k = a := by
  rw [mul_comm, Nat.mul_add_div (by positivity), Nat.div_eq_of_lt h, add_zero]

/-! ### Trimmed numerals -/

/-- The numeral is a zero standing alone, or begins with another digit. -/
def IsTrimmed (ds : List Digit) : Prop := ds = [.zero] ∨ ∃ d es, d ≠ .zero ∧ ds = d :: es

/-- A numeral without its leading zeros; of a numeral of zeros alone, one zero is kept. -/
def trim (ds : List Digit) : List Digit :=
  match ds.dropWhile (· = .zero) with
  | [] => [.zero]
  | ds => ds

theorem isTrimmed_trim (ds : List Digit) : IsTrimmed (trim ds) := by
  unfold trim
  split
  · exact .inl rfl
  · next hne =>
    rcases hes : ds.dropWhile (· = 0) with _ | ⟨d, es⟩
    · exact absurd hes hne
    · have hd := List.head_dropWhile_not (fun d : Digit => decide (d = 0)) (l := ds)
        (by simp [hes])
      simp only [hes, List.head_cons, decide_eq_false_iff_not] at hd
      exact .inr ⟨d, es, hd, hes⟩

theorem horner_trim (ds : List Digit) : horner (trim ds) = horner ds := by
  rw [← horner_dropWhile_zero ds]
  unfold trim
  split
  · next h => rw [h]; rfl
  · rfl

/-- Trimming makes no numeral longer, as long as there is a digit to keep. -/
theorem length_trim_le {ds : List Digit} (h : ds ≠ []) : (trim ds).length ≤ ds.length := by
  unfold trim
  split
  · exact List.length_pos_iff.mpr h
  · exact (List.dropWhile_suffix _).length_le

theorem IsTrimmed.ne_nil {ds : List Digit} (h : IsTrimmed ds) : ds ≠ [] := by
  rcases h with rfl | ⟨d, es, -, rfl⟩ <;> simp

/-- A numeral that a digit other than zero leads denotes a number with as many digits. -/
theorem pow_le_horner_cons {d : Digit} (hd : d ≠ 0) (ds : List Digit) :
    10 ^ ds.length ≤ horner (d :: ds) := by
  have hpos : 1 ≤ d.val := Nat.one_le_iff_ne_zero.mpr fun h => hd (Fin.ext h)
  have hmul : 1 * 10 ^ ds.length ≤ d.val * 10 ^ ds.length := Nat.mul_le_mul_right _ hpos
  rw [horner_cons]
  omega

/-- The only trimmed numeral of zero is the lone zero. -/
theorem IsTrimmed.eq_zero {ds : List Digit} (h : IsTrimmed ds) (h0 : horner ds = 0) :
    ds = [0] := by
  rcases h with rfl | ⟨d, es, hd, rfl⟩
  · rfl
  · have hpow : 0 < 10 ^ es.length := by positivity
    have := pow_le_horner_cons hd es
    omega

/-- Trimmed numerals of one number are equal. -/
theorem IsTrimmed.eq_of_horner_eq {ds es : List Digit} (hd : IsTrimmed ds) (he : IsTrimmed es)
    (h : horner ds = horner es) : ds = es := by
  by_cases h0 : horner ds = 0
  · rw [hd.eq_zero h0, he.eq_zero (h ▸ h0)]
  rcases hd with rfl | ⟨d, ds, hd, rfl⟩
  · exact absurd rfl h0
  rcases he with rfl | ⟨e, es, he, rfl⟩
  · exact absurd h h0
  refine horner_injective_of_length_eq ?_ h
  -- both lengths are the number of digits of the one number
  have hlt := horner_lt (d :: ds)
  have hlt' := horner_lt (e :: es)
  have hle := pow_le_horner_cons hd ds
  have hle' := pow_le_horner_cons he es
  rw [h] at hlt hle
  have h1 : ds.length < (e :: es).length :=
    (Nat.pow_lt_pow_iff_right (by decide)).mp (hle.trans_lt hlt')
  have h2 : es.length < (d :: ds).length :=
    (Nat.pow_lt_pow_iff_right (by decide)).mp (hle'.trans_lt hlt)
  simp only [List.length_cons] at *
  omega

/-! ### The digits that are written -/

@[simp] theorem horner_ofNat (n : Nat) : horner (ofNat n) = n := by
  rw [← value_eq_horner, value_ofNat]

@[simp] theorem horner_padded (width n : Nat) : horner (padded width n) = n := by
  rw [← value_eq_horner, value_padded]

theorem isTrimmed_ofNat (n : Nat) : IsTrimmed (ofNat n) :=
  isTrimmed_trim (block (n.log2.log2 + 1) n)

/-- A number below `10 ^ width` has at most `width` digits, where `width` is positive. -/
theorem length_ofNat_le {width n : Nat} (hw : 0 < width) (h : n < 10 ^ width) :
    (ofNat n).length ≤ width := by
  rcases isTrimmed_ofNat n with h0 | ⟨d, ds, hd, hds⟩
  · rw [h0]; exact hw
  · have hle := pow_le_horner_cons hd ds
    rw [← hds, horner_ofNat] at hle
    have : ds.length < width := (Nat.pow_lt_pow_iff_right (by decide)).mp (hle.trans_lt h)
    simpa [hds] using this

/-- A number below `10 ^ width` is filled up to exactly `width` digits. -/
theorem length_padded {width n : Nat} (hw : 0 < width) (h : n < 10 ^ width) :
    (padded width n).length = width := by
  have := length_ofNat_le hw h
  simp [padded]
  omega

end PostfixCalculator.Numeral
