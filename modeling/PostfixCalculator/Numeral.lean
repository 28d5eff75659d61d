/-!
# Decimal numerals

A numeral is a list of decimal digits, the most significant first.  Reading and writing both divide
the work in halves, so that numerals of hundreds of thousands of digits stay quick; the slow and
plain rule that they follow is `horner`.

## Main definitions

* `Digit` — a decimal digit, with its character.
* `Numeral.value ds` — the number that the digits `ds` denote.
* `Numeral.ofNat n` — the digits of `n`, without leading zeros (`0` has the one digit `0`).
* `Numeral.padded width n` — the digits of `n`, filled up with leading zeros.

## Main results

* `value_eq_horner`, `horner_append` — what `value` computes, and how it splits.
* `value_ofNat` — the digits of a number denote it.
-/

namespace PostfixCalculator

/-- A decimal digit. -/
abbrev Digit := Fin 10

namespace Digit

/-- The character of a digit. -/
def toChar (d : Digit) : Char := Char.ofNat (48 + d.val)

/-- The digit that a digit character shows. -/
def ofChar (c : Char) : Digit := Fin.ofNat 10 (c.toNat - 48)

/-- The digit zero. -/
abbrev zero : Digit := 0

theorem isDigit_toChar : ∀ d : Digit, (toChar d).isDigit := by decide

@[simp] theorem ofChar_toChar : ∀ d : Digit, ofChar (toChar d) = d := by decide

theorem toChar_ofChar {c : Char} (h : c.isDigit) : toChar (ofChar c) = c := by
  have hc : 48 ≤ c.toNat ∧ c.toNat ≤ 57 := by
    simp only [Char.isDigit, Bool.and_eq_true, decide_eq_true_eq] at h
    exact ⟨UInt32.le_iff_toNat_le.mp h.1, UInt32.le_iff_toNat_le.mp h.2⟩
  have hv : (ofChar c).val = c.toNat - 48 := by
    show (c.toNat - 48) % 10 = c.toNat - 48
    omega
  have : 48 + (ofChar c).val = c.toNat := by omega
  rw [toChar, this, Char.ofNat_toNat]

end Digit

namespace Numeral

-- Powers of natural numbers are those of core here, whichever other instances are in scope.
attribute [local instance (2000)] instPowNat

/-- The characters of a numeral. -/
def text (ds : List Digit) : List Char := ds.map Digit.toChar

/-- The digits that a row of digit characters shows. -/
def ofText (cs : List Char) : List Digit := cs.map Digit.ofChar

@[simp] theorem ofText_text (ds : List Digit) : ofText (text ds) = ds := by
  simp [ofText, text, Function.comp_def]

theorem text_ofText {cs : List Char} (h : ∀ c ∈ cs, c.isDigit) : text (ofText cs) = cs := by
  induction cs with
  | nil => rfl
  | cons c cs ih =>
    simp only [ofText, text, List.map_cons, List.cons.injEq]
    exact ⟨Digit.toChar_ofChar (h c (by simp)), ih fun d hd => h d (by simp [hd])⟩

@[simp] theorem length_text (ds : List Digit) : (text ds).length = ds.length := by simp [text]

/-! ### The number a numeral denotes -/

/-- The number denoted by `ds`, digit by digit from the left. -/
def horner (ds : List Digit) : Nat := ds.foldl (fun n d => n * 10 + d.val) 0

/-- The number denoted by `ds`, cutting it in two `depth` times over. -/
def valueByHalves : Nat → List Digit → Nat
  | 0, ds => horner ds
  | depth + 1, ds =>
    let half := ds.length / 2
    valueByHalves depth (ds.take half) * 10 ^ (ds.length - half)
      + valueByHalves depth (ds.drop half)

/-- The number that the digits `ds` denote.  The pieces that are read digit by digit have about a
hundred digits. -/
def value (ds : List Digit) : Nat := valueByHalves (ds.length.log2 - 6) ds

theorem foldl_horner (ds : List Digit) (n : Nat) :
    ds.foldl (fun n d => n * 10 + d.val) n = n * 10 ^ ds.length + horner ds := by
  induction ds generalizing n with
  | nil => simp [horner]
  | cons d ds ih =>
    rw [List.foldl_cons, ih]
    simp only [horner, List.foldl_cons]
    rw [ih (0 * 10 + d.val), List.length_cons, Nat.pow_succ', Nat.zero_mul, Nat.zero_add,
      Nat.add_mul, ← Nat.mul_assoc, Nat.add_assoc]
    rfl

theorem horner_append (ds es : List Digit) :
    horner (ds ++ es) = horner ds * 10 ^ es.length + horner es := by
  rw [horner, List.foldl_append, foldl_horner]
  rfl

theorem valueByHalves_eq_horner (depth : Nat) (ds : List Digit) :
    valueByHalves depth ds = horner ds := by
  induction depth generalizing ds with
  | zero => rfl
  | succ depth ih =>
    have := horner_append (ds.take (ds.length / 2)) (ds.drop (ds.length / 2))
    rw [List.take_append_drop, List.length_drop] at this
    rw [valueByHalves, ih, ih, this]

theorem value_eq_horner (ds : List Digit) : value ds = horner ds := valueByHalves_eq_horner _ ds

/-! ### The digits of a number -/

/-- The last `2 ^ depth` digits of `n`. -/
def block : Nat → Nat → List Digit
  | 0, n => [Fin.ofNat 10 n]
  | depth + 1, n =>
    block depth (n / 10 ^ (2 ^ depth : Nat)) ++ block depth (n % 10 ^ (2 ^ depth : Nat))

/-- The digits of `n`, without leading zeros. -/
def ofNat (n : Nat) : List Digit :=
  match (block (n.log2.log2 + 1) n).dropWhile (· = 0) with
  | [] => [0]
  | ds => ds

/-- The digits of `n`, filled up with leading zeros to at least `width` digits. -/
def padded (width n : Nat) : List Digit :=
  List.replicate (width - (ofNat n).length) 0 ++ ofNat n

@[simp] theorem length_block (depth n : Nat) : (block depth n).length = 2 ^ depth := by
  induction depth generalizing n with
  | zero => rfl
  | succ depth ih => rw [block, List.length_append, ih, ih, Nat.pow_succ]; omega

theorem horner_block {depth n : Nat} (h : n < 10 ^ (2 ^ depth : Nat)) :
    horner (block depth n) = n := by
  induction depth generalizing n with
  | zero =>
    have : n % 10 = n := Nat.mod_eq_of_lt (by simpa using h)
    simp [block, horner, this]
  | succ depth ih =>
    have hpos : 0 < 10 ^ (2 ^ depth : Nat) := Nat.pow_pos (by decide)
    have hhigh : n / 10 ^ (2 ^ depth : Nat) < 10 ^ (2 ^ depth : Nat) := by
      rw [Nat.div_lt_iff_lt_mul hpos, ← Nat.pow_add]
      have : 2 ^ depth + 2 ^ depth = 2 ^ (depth + 1) := by rw [Nat.pow_succ]; omega
      rwa [this]
    rw [block, horner_append, ih hhigh, ih (Nat.mod_lt n hpos), length_block]
    exact Nat.div_add_mod' n (10 ^ (2 ^ depth : Nat))

/-- Leading zeros do not count. -/
theorem horner_dropWhile_zero (ds : List Digit) : horner (ds.dropWhile (· = 0)) = horner ds := by
  induction ds with
  | nil => rfl
  | cons d ds ih =>
    by_cases hd : d = 0
    · subst hd
      rw [List.dropWhile_cons_of_pos (by simp), ih]
      simp [horner]
    · rw [List.dropWhile_cons_of_neg (by simpa using hd)]

/-- The digits of a number denote it. -/
theorem value_ofNat (n : Nat) : value (ofNat n) = n := by
  have hn : n < 10 ^ (2 ^ (n.log2.log2 + 1) : Nat) := by
    have h1 : n < 2 ^ (n.log2 + 1) := Nat.lt_log2_self
    have h2 : n.log2 < 2 ^ (n.log2.log2 + 1) := Nat.lt_log2_self
    have h3 : 2 ^ (n.log2 + 1) ≤ 2 ^ (2 ^ (n.log2.log2 + 1) : Nat) :=
      Nat.pow_le_pow_right (by decide) h2
    have h4 : 2 ^ (2 ^ (n.log2.log2 + 1) : Nat) ≤ 10 ^ (2 ^ (n.log2.log2 + 1) : Nat) :=
      Nat.pow_le_pow_left (by decide) _
    omega
  have hz : horner ((block (n.log2.log2 + 1) n).dropWhile (· = 0)) = n := by
    rw [horner_dropWhile_zero, horner_block hn]
  rw [value_eq_horner, ofNat]
  split
  · next h => rw [h] at hz; simpa [horner] using hz
  · exact hz

theorem value_padded (width n : Nat) : value (padded width n) = n := by
  have hz : ∀ k, horner (List.replicate k (0 : Digit)) = 0 := by
    intro k
    induction k with
    | zero => rfl
    | succ k ih => rw [List.replicate_succ', horner_append, ih]; simp [horner]
  rw [value_eq_horner, padded, horner_append, hz, ← value_eq_horner (ofNat n), value_ofNat]
  omega

end Numeral

end PostfixCalculator
