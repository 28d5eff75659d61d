import PostfixCalculator.Engine.FixedWidth
import PostfixCalculator.Proofs.Literal.Shape

/-!
# Counting on machine words

Within the bounds that an engine keeps, no counter of the exact engine leaves the range of its word:
the precision is at most a thousand, an exponent is at most a hundred thousand, and a literal of at
most `2 ^ 30` bytes has no more digits than that.  So sums and differences do not wrap, casts keep
their numbers, and the engine on words gives the results of the one on unbounded numbers.

## Main definitions

* `FewDigits n` — the literal `n` has at most `2 ^ 30` digits.
* `PointFits n e`, `FlatFits n` — no counter overflows while the flat form of `n` is made, with the
  exponent `e` where one is written.
* `PlacesFit op a b least` — no counter overflows while the places of `a op b` are counted.

## Main results

* `pointFits`, `flatFits`, `placesFit` — none of these counters overflows for few digits.
* `applyExact_eq` — the backend on words gives the results of the exact backend.
* `operateExact_fits` — **no step of an exact operation overflows**, and the results are the same.
-/

namespace PostfixCalculator.FixedWidth

open Decimal

/-! ### Words within their range -/

theorem toNat_wordLength {α : Type} {l : List α} (h : l.length < 2 ^ 64) :
    (wordLength l).toNat = l.length := UInt64.toNat_ofNat_of_lt' h

theorem toInt_signedLength {α : Type} {l : List α} (h : l.length < 2 ^ 63) :
    (signedLength l).toInt = l.length := Int64.toInt_ofNat_of_lt h

theorem toInt_add {v w : Int64} (hlo : -2 ^ 63 ≤ v.toInt + w.toInt)
    (hhi : v.toInt + w.toInt < 2 ^ 63) : (v + w).toInt = v.toInt + w.toInt := by
  rw [Int64.toInt_add]
  exact Int.bmod_eq_of_le (by omega) (by omega)

theorem toInt_sub {v w : Int64} (hlo : -2 ^ 63 ≤ v.toInt - w.toInt)
    (hhi : v.toInt - w.toInt < 2 ^ 63) : (v - w).toInt = v.toInt - w.toInt := by
  rw [Int64.toInt_sub]
  exact Int.bmod_eq_of_le (by omega) (by omega)

theorem toInt_neg {w : Int64} (h : -2 ^ 63 < w.toInt) : (-w).toInt = -w.toInt := by
  have hhi := w.toInt_lt
  rw [Int64.toInt_neg]
  exact Int.bmod_eq_of_le (by omega) (by omega)

theorem toInt_max (v w : Int64) : (max v w).toInt = max v.toInt w.toInt := by
  show (if v ≤ w then w else v).toInt = _
  rw [apply_ite Int64.toInt, max_def]
  simp only [Int64.le_iff_toInt_le]

theorem nonneg_iff {w : Int64} : 0 ≤ w ↔ 0 ≤ w.toInt := by
  rw [Int64.le_iff_toInt_le, Int64.toInt_zero]

theorem nonpos_iff {w : Int64} : w ≤ 0 ↔ w.toInt ≤ 0 := by
  rw [Int64.le_iff_toInt_le, Int64.toInt_zero]

/-- A signed word that is not negative is cast to the same number. -/
theorem toNat_toUInt64 {w : Int64} (h : 0 ≤ w) : w.toUInt64.toNat = w.toInt.toNat :=
  Int64.toNat_toUInt64_of_le h

theorem toNat_add {v w : UInt64} (h : v.toNat + w.toNat < 2 ^ 64) :
    (v + w).toNat = v.toNat + w.toNat := by
  rw [UInt64.toNat_add, Nat.mod_eq_of_lt h]

theorem pos_iff {w : UInt64} : 0 < w ↔ 0 < w.toNat := UInt64.lt_iff_toNat_lt

/-- A power of ten below `10 ^ 2 ^ 32` does not lose its exponent. -/
theorem powerOfTen_eq {w : UInt64} (h : w.toNat < 2 ^ 32) : powerOfTen w = 10 ^ w.toNat := by
  rw [powerOfTen, UInt64.toNat_toUInt32, Nat.mod_eq_of_lt h]

/-! ### The flat form -/

/-- The digits of a literal on both sides of the point, as characters. -/
def digitChars (n : Literal) : List Char := Numeral.text (n.integer ++ n.fractionDigits)

theorem length_digitChars (n : Literal) :
    (digitChars n).length = n.integer.length + n.fractionDigits.length := by
  rw [digitChars, Numeral.length_text, List.length_append]

/-- The literal has at most `2 ^ 30` digits. -/
def FewDigits (n : Literal) : Prop := n.integer.length + n.fractionDigits.length ≤ 2 ^ 30

/-- No counter overflows while the point of a literal is moved by the exponent `e`. -/
structure PointFits (n : Literal) (e : Int) : Prop where
  /-- The exponent is a word. -/
  exponent : (Int64.ofInt e).toInt = e
  /-- The number of digits is cast to a word. -/
  digits : (wordLength (digitChars n)).toNat = (digitChars n).length
  /-- The number of digits before the point is cast to a signed word. -/
  integer : (signedLength n.integer).toInt = n.integer.length
  /-- The number of digits after the point is cast to a signed word. -/
  fraction : (signedLength n.fractionDigits).toInt = n.fractionDigits.length
  /-- The places of the flat form are a difference that does not overflow. -/
  places : (signedLength n.fractionDigits - Int64.ofInt e).toInt = n.fractionDigits.length - e
  /-- They are cast from a number that is not negative. -/
  places_nonneg : 0 ≤ max (signedLength n.fractionDigits - Int64.ofInt e) 0
  /-- The position of the point is a sum that does not overflow. -/
  position : (point n e).toInt = n.integer.length + e
  /-- Where the point lies in front of the digits, its distance does not overflow and is not
  negative, and at most a hundred thousand zeros are put there. -/
  front : point n e ≤ 0 → (-point n e).toInt = -(n.integer.length + e) ∧ 0 ≤ -point n e ∧
    (-point n e).toUInt64.toNat ≤ maxExponent
  /-- Elsewhere its position is not negative and is cast to the same number. -/
  position_cast : ¬point n e ≤ 0 →
    0 ≤ point n e ∧ (point n e).toUInt64.toNat = (n.integer.length + e).toNat
  /-- Where the point lies behind the digits, the difference does not wrap, and at most a hundred
  thousand zeros are put there. -/
  behind : ¬point n e ≤ 0 → wordLength (digitChars n) ≤ (point n e).toUInt64 →
    ((point n e).toUInt64 - wordLength (digitChars n)).toNat =
      (point n e).toUInt64.toNat - (digitChars n).length ∧
    ((point n e).toUInt64 - wordLength (digitChars n)).toNat ≤ maxExponent
  /-- Elsewhere it lies among the digits. -/
  among : ¬point n e ≤ 0 → ¬wordLength (digitChars n) ≤ (point n e).toUInt64 →
    (point n e).toUInt64.toNat < (digitChars n).length

variable {n : Literal} {e : Int}

/-- **No counter overflows while a point is moved.** -/
theorem pointFits (hdigits : FewDigits n) (he : e.natAbs ≤ maxExponent) : PointFits n e := by
  have hbound : e.natAbs ≤ 100000 := he
  unfold FewDigits at hdigits
  have hexponent : (Int64.ofInt e).toInt = e := Int64.toInt_ofInt_of_le (by omega) (by omega)
  have hinteger : (signedLength n.integer).toInt = n.integer.length :=
    toInt_signedLength (by omega)
  have hfraction : (signedLength n.fractionDigits).toInt = n.fractionDigits.length :=
    toInt_signedLength (by omega)
  have hlength := length_digitChars n
  have hdigitChars : (wordLength (digitChars n)).toNat = (digitChars n).length :=
    toNat_wordLength (by omega)
  have hplaces : (signedLength n.fractionDigits - Int64.ofInt e).toInt =
      n.fractionDigits.length - e := by
    rw [toInt_sub] <;> rw [hfraction, hexponent] <;> omega
  have hpoint : (point n e).toInt = n.integer.length + e := by
    rw [point, toInt_add] <;> rw [hinteger, hexponent] <;> omega
  have hneg : (-point n e).toInt = -(n.integer.length + e) := by
    rw [toInt_neg] <;> rw [hpoint]
    omega
  have hcast (hpos : ¬point n e ≤ 0) :
      0 ≤ point n e ∧ (point n e).toUInt64.toNat = (n.integer.length + e).toNat := by
    rw [nonpos_iff] at hpos
    have hnonneg : 0 ≤ point n e := nonneg_iff.mpr (by omega)
    exact ⟨hnonneg, by rw [toNat_toUInt64 hnonneg, hpoint]⟩
  refine ⟨hexponent, hdigitChars, hinteger, hfraction, hplaces, ?_, hpoint, fun hfront => ?_, hcast,
    fun hpos hle => ?_, fun hpos hlt => ?_⟩
  · rw [nonneg_iff, toInt_max, Int64.toInt_zero]
    exact le_max_right _ _
  · rw [nonpos_iff, hpoint] at hfront
    have hnonneg : 0 ≤ -point n e := by
      rw [nonneg_iff, hneg]
      omega
    refine ⟨hneg, hnonneg, ?_⟩
    rw [toNat_toUInt64 hnonneg, hneg, maxExponent]
    omega
  · have hzeros := UInt64.toNat_sub_of_le _ _ hle
    rw [hdigitChars] at hzeros
    refine ⟨hzeros, ?_⟩
    -- the point lies behind the last digit by at most the exponent
    rw [hzeros, (hcast hpos).2, maxExponent]
    omega
  · rw [UInt64.le_iff_toNat_le, hdigitChars] at hlt
    exact Nat.not_le.mp hlt

/-- On words the point is placed where it belongs. -/
theorem placePoint_eq (h : PointFits n e) :
    placePoint (digitChars n) (point n e) =
      Literal.placePoint (digitChars n) (n.integer.length + e) := by
  unfold placePoint Literal.placePoint
  by_cases hfront : point n e ≤ 0
  · obtain ⟨hneg, hnonneg, -⟩ := h.front hfront
    have hpos : (n.integer.length : Int) + e ≤ 0 := by rwa [nonpos_iff, h.position] at hfront
    rw [if_pos hfront, if_pos hpos, toNat_toUInt64 hnonneg, hneg]
  · have hpos : ¬(n.integer.length : Int) + e ≤ 0 := by rwa [nonpos_iff, h.position] at hfront
    rw [if_neg hfront, if_neg hpos, ← (h.position_cast hfront).2]
    by_cases hle : wordLength (digitChars n) ≤ (point n e).toUInt64
    · obtain ⟨hzeros, -⟩ := h.behind hfront hle
      have hle' : (digitChars n).length ≤ (point n e).toUInt64.toNat := by
        rwa [UInt64.le_iff_toNat_le, h.digits] at hle
      rw [if_pos hle, if_pos hle', hzeros]
    · rw [if_neg hle, if_neg (Nat.not_le.mpr (h.among hfront hle))]

/-- The exponent of a literal is bounded. -/
theorem natAbs_le_maxExponent (h : n.exponentValue? = some e) : e.natAbs ≤ maxExponent := by
  obtain ⟨exponent, -, rfl⟩ := Option.map_eq_some_iff.mp h
  exact exponent.natAbs_value_le

theorem fractionLength_le (h : FewDigits n) : n.fractionLength ≤ 2 ^ 30 + maxExponent := by
  unfold FewDigits at h
  unfold Literal.fractionLength
  rcases he : n.exponentValue? with _ | e <;> dsimp only
  · omega
  · have hbound := natAbs_le_maxExponent he
    omega

/-- The places of a flat form are counted right on words. -/
theorem toNat_fractionLength (h : FewDigits n) : (fractionLength n).toNat = n.fractionLength := by
  unfold fractionLength Literal.fractionLength
  rcases he : n.exponentValue? with _ | e <;> dsimp only
  · rw [toNat_wordLength]
    unfold FewDigits at h
    omega
  · have hfits := pointFits h (natAbs_le_maxExponent he)
    rw [toNat_toUInt64 hfits.places_nonneg, toInt_max, hfits.places, Int64.toInt_zero]
    omega

/-- The flat form made on words is right. -/
theorem flatChars_eq (h : FewDigits n) : flatChars n = n.flatChars := by
  unfold flatChars Literal.flatChars
  rcases he : n.exponentValue? with _ | e <;> dsimp only
  have hplace := placePoint_eq (pointFits h (natAbs_le_maxExponent he))
  rw [digitChars] at hplace
  rw [hplace]

/-- No counter overflows while the flat form of a literal is made and read. -/
structure FlatFits (n : Literal) : Prop where
  /-- Where there is an exponent, the point is moved without overflow. -/
  pointFits : ∀ e, n.exponentValue? = some e → PointFits n e
  /-- The places of the flat form are counted right. -/
  toNat_fractionLength : (fractionLength n).toNat = n.fractionLength
  /-- The flat form is right. -/
  flatChars_eq : flatChars n = n.flatChars
  /-- It has as many digits after its point as are counted. -/
  length_places : (splitPoint (splitMinus (flatChars n)).2).2.length = n.fractionLength
  /-- Their number is cut to 32 bits without loss where it is the exponent of a power of ten. -/
  length_places_lt : (splitPoint (splitMinus (flatChars n)).2).2.length < 2 ^ 32

/-- **No counter overflows while a flat form is made and read.** -/
theorem flatFits (h : FewDigits n) : FlatFits n := by
  have hlength : (splitPoint (splitMinus (flatChars n)).2).2.length = n.fractionLength := by
    rw [flatChars_eq h, Literal.flatChars_eq, splitMinus_chars, splitPoint_body,
      Numeral.length_text]
    exact n.length_placeDigits_flatSpelling
  refine ⟨fun e he => pointFits h (natAbs_le_maxExponent he), toNat_fractionLength h,
    flatChars_eq h, hlength, ?_⟩
  have hbound := fractionLength_le h
  unfold maxExponent at hbound
  omega

/-! ### Places -/

theorem placesFor_le (op : Operator) (a b : Literal) (least : Nat) :
    PostfixCalculator.placesFor op a b least ≤
      least + a.fractionLength + b.fractionLength + 1 := by
  unfold PostfixCalculator.placesFor
  split
  · cases op <;> dsimp only <;> omega
  · omega

/-- No counter overflows while the places of `a op b` are counted. -/
structure PlacesFit (op : Operator) (a b : Literal) (least : UInt64) : Prop where
  /-- The places of a product are a sum that does not wrap. -/
  sum : (fractionLength a + fractionLength b).toNat = a.fractionLength + b.fractionLength
  /-- The place more that a sum keeps does not wrap. -/
  succ : (max (max least (fractionLength a)) (fractionLength b) + 1).toNat =
    max (max least.toNat a.fractionLength) b.fractionLength + 1
  /-- The places are counted right. -/
  placesFor_eq : (placesFor op a b least).toNat = PostfixCalculator.placesFor op a b least.toNat
  /-- They are cut to 32 bits without loss where they are the exponent of a power of ten. -/
  placesFor_lt : (placesFor op a b least).toNat < 2 ^ 32

/-- **No counter overflows while places are counted.** -/
theorem placesFit (op : Operator) {a b : Literal} {least : UInt64} (ha : FewDigits a)
    (hb : FewDigits b) (hleast : least.toNat ≤ maxPrecision) : PlacesFit op a b least := by
  have hlengthA := fractionLength_le ha
  have hlengthB := fractionLength_le hb
  have hwordA := toNat_fractionLength ha
  have hwordB := toNat_fractionLength hb
  unfold maxExponent at hlengthA hlengthB
  unfold maxPrecision at hleast
  have hsum : (fractionLength a + fractionLength b).toNat =
      a.fractionLength + b.fractionLength := by
    rw [toNat_add] <;> rw [hwordA, hwordB]
    omega
  have hmax : (max (max least (fractionLength a)) (fractionLength b)).toNat =
      max (max least.toNat a.fractionLength) b.fractionLength := by
    rw [UInt64.toNat_max, UInt64.toNat_max, hwordA, hwordB]
  have hsucc : (max (max least (fractionLength a)) (fractionLength b) + 1).toNat =
      max (max least.toNat a.fractionLength) b.fractionLength + 1 := by
    rw [toNat_add] <;> rw [hmax, UInt64.toNat_one]
    omega
  have hplaces : (placesFor op a b least).toNat =
      PostfixCalculator.placesFor op a b least.toNat := by
    unfold placesFor PostfixCalculator.placesFor Literal.hasFraction
    simp only [pos_iff, hwordA, hwordB]
    split
    · cases op with
      | plus => exact hsucc
      | minus => exact hmax
      | times => rw [UInt64.toNat_max, hsum]
      | divide => rfl
    · rfl
  have hbound := placesFor_le op a b least.toNat
  exact ⟨hsum, hsucc, hplaces, by omega⟩

/-! ### The exact backend -/

/-- A text with fewer than `2 ^ 32` places is read right. -/
theorem charsToRat?_eq {cs : List Char}
    (h : (splitPoint (splitMinus cs).2).2.length < 2 ^ 32) :
    charsToRat? cs = Decimal.charsToRat? cs := by
  have hword := toNat_wordLength (h.trans (by decide))
  have hpower := powerOfTen_eq (hword ▸ h)
  rw [hword] at hpower
  unfold charsToRat? Decimal.charsToRat? ofDigits Numeral.ofText
  dsimp only
  rw [hpower, List.map_append, List.length_map]

theorem scaled_eq (r : ℚ) {places : UInt64} (h : places.toNat < 2 ^ 32) :
    scaled r places = Decimal.scaled r places.toNat := by
  unfold scaled
  rw [powerOfTen_eq h]
  rfl

theorem scaledChars_eq (s : Int) {places : UInt64} (h : places.toNat < 2 ^ 32) :
    scaledChars s places = Decimal.scaledChars s places.toNat := by
  have hzero : places = 0 ↔ places.toNat = 0 := UInt64.toNat_inj.symm
  unfold scaledChars Decimal.scaledChars
  simp only [powerOfTen_eq h, hzero]

/-- **The exact backend on words gives the results of the one on unbounded numbers.** -/
theorem applyExact_eq (op : Operator) {a b : Literal} {places : UInt64} (ha : FlatFits a)
    (hb : FlatFits b) (h : places.toNat < 2 ^ 32) :
    applyExact op a b places = Backend.applyExact op a b places.toNat := by
  have hread {n : Literal} (hn : FlatFits n) : charsToRat? (flatChars n) = toRat? n.flat := by
    rw [charsToRat?_eq hn.length_places_lt, hn.flatChars_eq, toRat?, Literal.flat,
      String.toList_ofList]
  unfold applyExact Backend.applyExact
  rw [hread ha, hread hb, a.toRat?_flat, b.toRat?_flat]
  dsimp only
  rcases Backend.applyRat op a.value b.value with e | r
  · rfl
  · dsimp only
    rw [scaled_eq r h, scaledChars_eq _ h, Decimal.normalize, ofRat, ratChars,
      String.toList_ofList]

/-! ### The engine -/

/-- A character is at least one byte long. -/
theorem length_le_utf8ByteSize (cs : List Char) : cs.length ≤ (String.ofList cs).utf8ByteSize := by
  rw [String.utf8ByteSize_ofList]
  induction cs with
  | nil => exact Nat.le_refl 0
  | cons c cs ih =>
    have hc := c.utf8Size_pos
    rw [String.utf8Len_cons, List.length_cons]
    omega

/-- A text of at most `2 ^ 30` bytes is no literal of more digits. -/
theorem fewDigits_of_parse? {text : String} (hsize : text.utf8ByteSize ≤ 2 ^ 30)
    (h : Literal.parse? text = some n) : FewDigits n := by
  have hdigits := n.le_length_chars
  have hbytes : n.chars.length ≤ text.utf8ByteSize := by
    rw [Literal.parse?_eq_some_iff.mp h]
    exact length_le_utf8ByteSize n.chars
  rw [List.length_append] at hdigits
  unfold FewDigits
  omega

/-- **No counter of an exact operation overflows.**  Whatever word the precision of a configuration
is and whatever two literals of at most `2 ^ 30` bytes are the operands, sums and differences do not
wrap and casts keep their numbers while the places of the result are counted and while the flat
forms are made and read.  Every exponent of a power of ten fits into 32 bits, so the power is not
another one.  The results are those of the engine that counts without bound. -/
theorem operateExact_fits (precision : UInt64) (ops : List Operator) {a b : String} {x y : Literal}
    (ha : a.utf8ByteSize ≤ 2 ^ 30) (hb : b.utf8ByteSize ≤ 2 ^ 30)
    (hx : Literal.parse? a = some x) (hy : Literal.parse? b = some y) :
    (min precision (UInt64.ofNat maxPrecision)).toNat = min precision.toNat maxPrecision ∧
    (∀ op, PlacesFit op x y (min precision (UInt64.ofNat maxPrecision))) ∧
    FlatFits x ∧ FlatFits y ∧
    (∀ exponent : UInt64, exponent.toNat < 2 ^ 32 → powerOfTen exponent = 10 ^ exponent.toNat) ∧
    ∀ symbol, operateExact precision ops (some a) (some b) symbol =
      (Engine.ofConfig ⟨precision.toNat, ops, .exact⟩).operate (some a) (some b) symbol := by
  have hleast : (min precision (UInt64.ofNat maxPrecision)).toNat =
      min precision.toNat maxPrecision := by
    have hbound : (UInt64.ofNat maxPrecision).toNat = maxPrecision := by decide
    rw [UInt64.toNat_min, hbound]
  have hdigitsX := fewDigits_of_parse? ha hx
  have hdigitsY := fewDigits_of_parse? hb hy
  have hfitsX := flatFits hdigitsX
  have hfitsY := flatFits hdigitsY
  have hplaces : ∀ op, PlacesFit op x y (min precision (UInt64.ofNat maxPrecision)) := fun op =>
    placesFit op hdigitsX hdigitsY (hleast.trans_le (min_le_right _ _))
  refine ⟨hleast, hplaces, hfitsX, hfitsY, fun exponent h => powerOfTen_eq h, fun symbol => ?_⟩
  have henabled : (Engine.ofConfig ⟨precision.toNat, ops, .exact⟩).enabled? symbol =
      (Operator.ofSymbol? symbol).filter (· ∈ ops) := rfl
  unfold operateExact Engine.operate
  rw [henabled]
  simp only [Option.bind_some, hx, hy]
  rcases (Operator.ofSymbol? symbol).filter (· ∈ ops) with _ | op
  · rfl
  · dsimp only
    rw [applyExact_eq op hfitsX hfitsY (hplaces op).placesFor_lt, (hplaces op).placesFor_eq, hleast]
    rfl

/-- The largest word is asked for, and one point moves in front of its digits and the other one
behind them. -/
theorem operateExact_fits_largest : ∃ x y, Literal.parse? "12.5e-3" = some x ∧
    Literal.parse? ".7e2" = some y ∧
    "12.5e-3".utf8ByteSize ≤ 2 ^ 30 ∧ ".7e2".utf8ByteSize ≤ 2 ^ 30 ∧
    (min (UInt64.ofNat (2 ^ 64 - 1)) (UInt64.ofNat maxPrecision)).toNat = 1000 ∧
    (∀ op, PlacesFit op x y (min (UInt64.ofNat (2 ^ 64 - 1)) (UInt64.ofNat maxPrecision))) ∧
    FlatFits x ∧ FlatFits y ∧
    operateExact (UInt64.ofNat (2 ^ 64 - 1)) Operator.all (some "12.5e-3") (some ".7e2") "*" =
      .ok (.exact "0.875") ∧
    (Engine.ofConfig { precision := 2 ^ 64 - 1 }).operate (some "12.5e-3") (some ".7e2") "*" =
      .ok (.exact "0.875") := by
  let x : Literal := ⟨false, [1, 2], some [5], some ⟨false, some .minus, [3], by decide,
    by decide⟩, by decide⟩
  let y : Literal := ⟨false, [], some [7], some ⟨false, none, [2], by decide, by decide⟩,
    by decide⟩
  have hx : Literal.parse? "12.5e-3" = some x := by decide
  have hy : Literal.parse? ".7e2" = some y := by decide
  have hsizeX : "12.5e-3".utf8ByteSize ≤ 2 ^ 30 := by decide
  have hsizeY : ".7e2".utf8ByteSize ≤ 2 ^ 30 := by decide
  obtain ⟨hleast, hplaces, hfitsX, hfitsY, -, hsame⟩ :=
    operateExact_fits (UInt64.ofNat (2 ^ 64 - 1)) Operator.all hsizeX hsizeY hx hy
  have hresult : operateExact (UInt64.ofNat (2 ^ 64 - 1)) Operator.all (some "12.5e-3")
      (some ".7e2") "*" = .ok (.exact "0.875") := by decide +kernel
  exact ⟨x, y, hx, hy, hsizeX, hsizeY, hleast, hplaces, hfitsX, hfitsY, hresult,
    (hsame "*").symm.trans hresult⟩

end PostfixCalculator.FixedWidth
