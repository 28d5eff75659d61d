import PostfixCalculator.Proofs.Decimal.Reading

/-!
# The one spelling of each number

The plain form of a text is a spelling again: the one without the zeros at the end of its places,
where a point left bare goes too and a signed zero becomes `0`.  It denotes the same number, and it
is the canonical spelling of that number when no superfluous zero leads the whole part.  A number
has only one canonical spelling.

## Main definitions

* `Spelling.normal` — the plain form, on the pieces.
* `Spelling.IsPlain` — no zero at the end of the places, no bare point and no signed zero.

## Main results

* `normalizeChars_chars` — normalizing a text of a spelling gives the text of its plain form.
* `Spelling.value_normal`, `Spelling.isPlain_normal` — what the plain form denotes, and that it is
  plain.
* `Spelling.isCanonical_iff` — the canonical spellings are the plain ones with a trimmed whole part.
* `Spelling.IsCanonical.eq_of_value_eq` — canonical spellings of one number are equal.
* `normalize_canonicalizes` — **normalizing brings each text to a plain one of the same number**,
  and to one and the same for all trimmed texts of a number.
-/

namespace PostfixCalculator.Decimal

namespace Spelling

/-- The digits after the point without the zeros at their end. -/
def keptPlaces (s : Spelling) : List Digit := s.placeDigits.rdropWhile (· = .zero)

/-- The spelling without the zeros at its end and without a point left bare. -/
def withoutZeros (s : Spelling) : Spelling :=
  { s with places := if s.keptPlaces = [] then none else some s.keptPlaces }

/-- There is no digit and no point, or a lone zero with a sign. -/
def IsBare (s : Spelling) : Prop :=
  s.places = none ∧ (s.whole = [] ∨ s.negative = true ∧ s.whole = [.zero])

instance (s : Spelling) : Decidable s.IsBare := inferInstanceAs (Decidable (_ ∧ _))

/-- The spelling `0`. -/
def zero : Spelling := ⟨false, [Digit.zero], none⟩

/-- The plain form of a spelling. -/
def normal (s : Spelling) : Spelling := if s.withoutZeros.IsBare then zero else s.withoutZeros

theorem placeDigits_withoutZeros (s : Spelling) : s.withoutZeros.placeDigits = s.keptPlaces := by
  unfold withoutZeros placeDigits
  split
  · next h => exact h.symm
  · rfl

/-! ### The characters of the plain form -/

/-- In reversed order, the zeros at the end of the places come first and the point next. -/
theorem dropPlaces_reverse (front : List Char) (ds : List Digit) :
    (dropPlaces (front ++ '.' :: Numeral.text ds).reverse).reverse =
      front ++ pointChars (if ds.rdropWhile (· = 0) = [] then none
        else some (ds.rdropWhile (· = 0))) := by
  have hrev : (front ++ '.' :: Numeral.text ds).reverse =
      Numeral.text ds.reverse ++ '.' :: front.reverse := by simp [Numeral.text]
  have hdrop : (Numeral.text ds.reverse).dropWhile (fun c => decide (c = '0')) =
      Numeral.text (ds.rdropWhile (· = 0)).reverse := by
    rw [dropWhile_zero_text, List.rdropWhile, List.reverse_reverse]
  unfold dropPlaces
  rw [hrev, List.dropWhile_append, hdrop]
  generalize ds.rdropWhile (· = 0) = kept
  rcases kept with _ | ⟨d, es⟩
  · simp [Numeral.text, pointChars]
  have htext : (Numeral.text (d :: es).reverse).reverse = Numeral.text (d :: es) := by
    simp [Numeral.text]
  -- the character in front of what is kept is a digit, not the point
  rcases hhead : Numeral.text (d :: es).reverse with _ | ⟨c, cs⟩
  · simp [Numeral.text] at hhead
  have hc : c ≠ '.' :=
    of_decide_eq_true (ne_point_of_mem_text (d :: es).reverse c (by rw [hhead]; simp))
  rw [hhead] at htext
  simp only [List.isEmpty_cons, Bool.false_eq_true, ↓reduceIte, List.cons_append, pointChars,
    reduceCtorEq]
  split
  · next h => exact absurd (List.cons.inj h).1 hc
  · rw [← List.cons_append, List.reverse_append, htext]
    simp

theorem contains_point_chars (s : Spelling) : s.chars.contains '.' = s.places.isSome := by
  have hfront : '.' ∉ s.frontChars :=
    fun h => of_decide_eq_true (ne_point_of_mem_frontChars s '.' h) rfl
  rw [chars_eq_frontChars, ← Bool.coe_iff_coe, List.contains_iff_mem, List.mem_append,
    or_iff_right hfront]
  cases s.places <;> simp [pointChars]

/-- Without its zeros and its bare point, a text is the text of what is left. -/
theorem chars_withoutZeros (s : Spelling) :
    (if s.chars.contains '.' then (dropPlaces s.chars.reverse).reverse else s.chars) =
      s.withoutZeros.chars := by
  rw [contains_point_chars]
  rcases hp : s.places with _ | ds
  · have hkept : s.keptPlaces = [] := by simp [keptPlaces, placeDigits, hp]
    simp [chars_eq, withoutZeros, hkept, hp]
  · have hkept : s.keptPlaces = ds.rdropWhile (· = 0) := by simp [keptPlaces, placeDigits, hp]
    have hchars : s.chars =
        ((if s.negative then ['-'] else []) ++ Numeral.text s.whole) ++ '.' :: Numeral.text ds := by
      rw [chars_eq, hp, List.append_assoc]
      rfl
    rw [hchars, dropPlaces_reverse, chars_eq, withoutZeros, hkept]
    simp only [Option.isSome_some, ↓reduceIte, List.append_assoc]

/-- The texts that become `0` are those of bare spellings. -/
theorem chars_eq_iff_isBare (s : Spelling) :
    (s.chars = [] ∨ s.chars = ['-'] ∨ s.chars = ['-', '0']) ↔ s.IsBare := by
  have hiff : ∀ t : Spelling, s.chars = t.chars ↔ s = t :=
    fun t => ⟨chars_injective, congrArg chars⟩
  have h1 : s.chars = [] ↔ s = ⟨false, [], none⟩ := hiff ⟨false, [], none⟩
  have h2 : s.chars = ['-'] ↔ s = ⟨true, [], none⟩ := hiff ⟨true, [], none⟩
  have h3 : s.chars = ['-', '0'] ↔ s = ⟨true, [0], none⟩ := hiff ⟨true, [0], none⟩
  rw [h1, h2, h3]
  obtain ⟨negative, whole, places⟩ := s
  cases negative <;> simp [IsBare, and_comm, or_and_right]

/-- **Normalizing a text of a spelling gives the text of its plain form.** -/
theorem normalizeChars_chars (s : Spelling) : normalizeChars s.chars = s.normal.chars := by
  unfold normalizeChars normal
  simp only [chars_withoutZeros, chars_eq_iff_isBare]
  split <;> rfl

theorem normalize_text (s : Spelling) : normalize s.text = s.normal.text := by
  rw [normalize, text, String.toList_ofList, normalizeChars_chars, text]

/-! ### The number that the plain form denotes -/

/-- The places of a spelling are those kept and zeros. -/
theorem placeDigits_eq (s : Spelling) :
    ∃ k, s.placeDigits = s.keptPlaces ++ List.replicate k 0 := by
  have hzeros : ∀ d ∈ s.placeDigits.rtakeWhile (· = 0), d = 0 :=
    fun d hd => by simpa using List.mem_rtakeWhile_imp hd
  refine ⟨(s.placeDigits.rtakeWhile (· = 0)).length, ?_⟩
  rw [← List.eq_replicate_of_mem hzeros]
  exact (List.rdropWhile_append_rtakeWhile).symm

theorem magnitude_withoutZeros (s : Spelling) : s.withoutZeros.magnitude = s.magnitude := by
  obtain ⟨k, hk⟩ := s.placeDigits_eq
  have hpow : (10 : ℚ) ^ k ≠ 0 := by positivity
  rw [magnitude, magnitude, placeDigits_withoutZeros, hk, ← List.append_assoc,
    Numeral.horner_append_zeros, List.length_append, List.length_replicate, pow_add]
  push_cast
  rw [mul_div_mul_right _ _ hpow]
  rfl

theorem magnitude_eq_zero_iff {s : Spelling} :
    s.magnitude = 0 ↔ ∀ d ∈ s.whole ++ s.placeDigits, d = 0 := by
  rw [magnitude, div_eq_zero_iff, or_iff_left (by positivity), Nat.cast_eq_zero,
    Numeral.horner_eq_zero_iff]

theorem IsBare.magnitude_eq_zero {s : Spelling} (h : s.IsBare) : s.magnitude = 0 := by
  obtain ⟨hplaces, hwhole⟩ := h
  rw [magnitude_eq_zero_iff, placeDigits, hplaces]
  rcases hwhole with hw | ⟨-, hw⟩ <;> simp [hw]

/-- **The plain form denotes the same number.** -/
theorem value_normal (s : Spelling) : s.normal.value = s.value := by
  have hvalue : s.withoutZeros.value = s.value := by
    rw [value_eq, value_eq, magnitude_withoutZeros]
    rfl
  unfold normal
  split
  · next hbare =>
    rw [← hvalue, value_eq s.withoutZeros, signed_eq_zero.mpr hbare.magnitude_eq_zero, value_eq,
      signed_eq_zero, magnitude_eq_zero_iff]
    simp [zero, placeDigits]
  · exact hvalue

/-- A whole part is kept by the plain form. -/
theorem whole_normal {s : Spelling} (h : s.whole ≠ []) : s.normal.whole = s.whole := by
  unfold normal
  split
  · next hbare =>
    rcases hbare.2 with hwhole | ⟨-, hwhole⟩
    · exact absurd hwhole h
    · exact hwhole.symm
  · rfl

theorem placeDigits_normal (s : Spelling) : s.normal.placeDigits = s.keptPlaces := by
  rw [← placeDigits_withoutZeros]
  unfold normal
  split
  · next hbare =>
    rw [placeDigits, placeDigits, hbare.1]
    rfl
  · rfl

/-! ### Plain spellings -/

/-- The last of the places kept, if there is one, is not zero. -/
theorem exists_keptPlaces_eq {s : Spelling} (h : s.keptPlaces ≠ []) :
    ∃ es d, d ≠ 0 ∧ s.keptPlaces = es ++ [d] := by
  have hlast := List.rdropWhile_last_not (fun d : Digit => decide (d = 0)) s.placeDigits h
  refine ⟨s.keptPlaces.dropLast, s.keptPlaces.getLast h, ?_, (List.dropLast_concat_getLast h).symm⟩
  intro hzero
  exact hlast (decide_eq_true hzero)

/-- Nothing is left for the plain form to take off. -/
structure IsPlain (s : Spelling) : Prop where
  /-- A point is followed by digits, of which the last is not zero. -/
  exists_eq_append : ∀ ds, s.places = some ds → ∃ es d, d ≠ .zero ∧ ds = es ++ [d]
  /-- There is a digit, and a lone zero has no sign. -/
  not_isBare : ¬s.IsBare

/-- **The plain form is plain.** -/
theorem isPlain_normal (s : Spelling) : s.normal.IsPlain := by
  unfold normal
  split
  · exact ⟨by simp [zero], by simp [IsBare, zero]⟩
  next hbare =>
  refine ⟨fun ds hds => ?_, hbare⟩
  unfold withoutZeros at hds
  dsimp only at hds
  split at hds
  · cases hds
  · next hne =>
    obtain ⟨es, d, hd, heq⟩ := exists_keptPlaces_eq hne
    exact ⟨es, d, hd, (Option.some.inj hds).symm.trans heq⟩

namespace IsPlain

variable {s : Spelling}

theorem places_eq (h : s.IsPlain) :
    s.places = if s.placeDigits = [] then none else some s.placeDigits := by
  rcases hp : s.places with _ | ds
  · simp [placeDigits, hp]
  · obtain ⟨es, d, -, heq⟩ := h.exists_eq_append ds hp
    simp [placeDigits, hp, heq]

theorem keptPlaces_eq (h : s.IsPlain) : s.keptPlaces = s.placeDigits := by
  rcases hp : s.places with _ | ds
  · simp [keptPlaces, placeDigits, hp]
  · obtain ⟨es, d, hd, rfl⟩ := h.exists_eq_append ds hp
    rw [keptPlaces, placeDigits, hp, Option.getD_some,
      List.rdropWhile_concat_neg _ _ _ (by simpa using hd)]

/-- **A plain spelling is its own plain form.** -/
theorem normal_eq (h : s.IsPlain) : s.normal = s := by
  have hsame : s.withoutZeros = s := by
    rw [withoutZeros, h.keptPlaces_eq, ← h.places_eq]
  rw [normal, hsame, if_neg h.not_isBare]

theorem hasDigit (h : s.IsPlain) : s.HasDigit := by
  by_contra hnone
  obtain ⟨hwhole, hplaces⟩ : s.whole = [] ∧ s.placeDigits = [] := by
    simpa [HasDigit, placeDigits] using hnone
  exact h.not_isBare ⟨by rw [h.places_eq, if_pos hplaces], .inl hwhole⟩

/-- A plain text is no zero with a sign. -/
theorem text_ne (h : s.IsPlain) : s.text ≠ "-0" := by
  intro htext
  have hchars : s.chars = ['-', '0'] := by
    rw [← String.toList_ofList (l := s.chars), ← text, htext]
    rfl
  exact h.not_isBare ((chars_eq_iff_isBare s).mp (.inr (.inr hchars)))

end IsPlain

/-! ### Canonical spellings -/

theorem IsTrimmed.whole_ne_nil {s : Spelling} (h : s.IsTrimmed) : s.whole ≠ [] :=
  Numeral.IsTrimmed.ne_nil h

theorem IsTrimmed.hasDigit {s : Spelling} (h : s.IsTrimmed) : s.HasDigit := .inl h.whole_ne_nil

/-- A plain spelling of zero with a trimmed whole part has no sign. -/
theorem IsPlain.value_ne_zero {s : Spelling} (h : s.IsPlain) (htrimmed : s.IsTrimmed)
    (hneg : s.negative = true) : s.value ≠ 0 := by
  -- a zero has no places left and a whole part of one digit
  intro hzero
  rw [value_eq, signed_eq_zero, magnitude_eq_zero_iff] at hzero
  have hplaces : s.places = none := by
    rw [Option.eq_none_iff_forall_ne_some]
    intro ds hds
    obtain ⟨es, d, hd, heq⟩ := h.exists_eq_append ds hds
    exact hd (hzero d (by simp [placeDigits, hds, heq]))
  have hwhole : s.whole = [0] := by
    rcases htrimmed with hw | ⟨d, ds, hd, hw⟩
    · exact hw
    · exact absurd (hzero d (by simp [hw])) hd
  exact h.not_isBare ⟨hplaces, .inr ⟨hneg, hwhole⟩⟩

theorem IsCanonical.isPlain {s : Spelling} (h : s.IsCanonical) : s.IsPlain := by
  obtain ⟨htrimmed, hplaces, hsign⟩ := h
  refine ⟨hplaces, fun hbare => ?_⟩
  rcases hbare.2 with hwhole | ⟨hneg, -⟩
  · exact htrimmed.whole_ne_nil hwhole
  · exact hsign hneg (by rw [value_eq, signed_eq_zero, hbare.magnitude_eq_zero])

/-- **The canonical spellings are the plain ones with a trimmed whole part.** -/
theorem isCanonical_iff {s : Spelling} : s.IsCanonical ↔ s.IsTrimmed ∧ s.IsPlain :=
  ⟨fun h => ⟨h.1, h.isPlain⟩,
    fun ⟨htrimmed, h⟩ => ⟨htrimmed, h.exists_eq_append, h.value_ne_zero htrimmed⟩⟩

/-- The plain form of a spelling with a trimmed whole part is canonical. -/
theorem isCanonical_normal {s : Spelling} (h : s.IsTrimmed) : s.normal.IsCanonical := by
  refine isCanonical_iff.mpr ⟨?_, s.isPlain_normal⟩
  rwa [IsTrimmed, whole_normal h.whole_ne_nil]

theorem IsCanonical.negative_iff {s : Spelling} (h : s.IsCanonical) :
    s.negative = true ↔ s.value < 0 := by
  have hvalue := s.value_eq
  have hnonneg := s.magnitude_nonneg
  constructor
  · intro hneg
    have hne := h.2.2 hneg
    rw [hneg, signed_true] at hvalue
    rw [hvalue] at hne ⊢
    exact lt_of_le_of_ne (by linarith) hne
  · intro hlt
    by_contra hneg
    rw [Bool.not_eq_true] at hneg
    rw [hneg, signed_false] at hvalue
    linarith

/-- A canonical spelling has no more places than any other spelling of its number. -/
theorem IsCanonical.length_placeDigits_le {s t : Spelling} (hs : s.IsCanonical)
    (h : s.magnitude = t.magnitude) : s.placeDigits.length ≤ t.placeDigits.length := by
  by_contra hlt
  obtain ⟨j, hj⟩ : ∃ j, s.placeDigits.length = t.placeDigits.length + (j + 1) :=
    ⟨s.placeDigits.length - t.placeDigits.length - 1, by omega⟩
  -- with more places, the digits of `s` would be a multiple of ten
  have hmul : Numeral.horner (s.whole ++ s.placeDigits) =
      Numeral.horner (t.whole ++ t.placeDigits) * 10 ^ (j + 1) := by
    have hpow : (10 : ℚ) ^ t.placeDigits.length ≠ 0 := by positivity
    rw [magnitude, magnitude, hj, pow_add, div_eq_div_iff (by positivity) hpow, ← mul_assoc,
      mul_right_comm] at h
    exact_mod_cast mul_right_cancel₀ hpow h
  have hplaces : ∃ ds, s.places = some ds := by
    rcases hp : s.places with _ | ds
    · simp [placeDigits, hp] at hj
    · exact ⟨ds, rfl⟩
  obtain ⟨ds, hds⟩ := hplaces
  obtain ⟨es, d, hd, heq⟩ := hs.2.1 ds hds
  have hlast : Numeral.horner (s.whole ++ s.placeDigits) =
      Numeral.horner (s.whole ++ es) * 10 + d.val := by
    rw [placeDigits, hds, Option.getD_some, heq, ← List.append_assoc, Numeral.horner_append]
    simp [Numeral.horner]
  have hten : d.val = 0 := by
    rw [hlast, pow_succ, ← mul_assoc] at hmul
    have hlt := d.isLt
    omega
  exact hd (Fin.ext hten)

/-- **Canonical spellings of one number are equal.** -/
theorem IsCanonical.eq_of_value_eq {s t : Spelling} (hs : s.IsCanonical) (ht : t.IsCanonical)
    (h : s.value = t.value) : s = t := by
  have hmag : s.magnitude = t.magnitude := by rw [← abs_value, h, abs_value]
  have hneg : s.negative = t.negative := by
    rw [Bool.eq_iff_iff, hs.negative_iff, h, ht.negative_iff]
  have hlen : s.placeDigits.length = t.placeDigits.length :=
    le_antisymm (hs.length_placeDigits_le hmag) (ht.length_placeDigits_le hmag.symm)
  have hhorner : Numeral.horner (s.whole ++ s.placeDigits) =
      Numeral.horner (t.whole ++ t.placeDigits) := by
    rw [magnitude, magnitude, hlen, div_left_inj' (by positivity)] at hmag
    exact_mod_cast hmag
  rw [Numeral.horner_append, Numeral.horner_append, hlen] at hhorner
  -- the whole parts are the quotients, the places the remainders
  have hlt : Numeral.horner s.placeDigits < 10 ^ t.placeDigits.length :=
    hlen ▸ Numeral.horner_lt s.placeDigits
  have hwhole : Numeral.horner s.whole = Numeral.horner t.whole := by
    rw [← Numeral.mul_pow_add_div (Numeral.horner s.whole) hlt, hhorner,
      Numeral.mul_pow_add_div _ (Numeral.horner_lt t.placeDigits)]
  have hplaces : s.placeDigits = t.placeDigits :=
    Numeral.horner_injective_of_length_eq hlen (by rw [hwhole] at hhorner; omega)
  have hw : s.whole = t.whole := Numeral.IsTrimmed.eq_of_horner_eq hs.1 ht.1 hwhole
  have hp : s.places = t.places := by rw [hs.isPlain.places_eq, ht.isPlain.places_eq, hplaces]
  obtain ⟨_, _, _⟩ := s
  obtain ⟨_, _, _⟩ := t
  simp_all

end Spelling

/-! ### Canonical texts -/

theorem IsCanonicalText.toRat?_eq {text : String} {r : ℚ} (h : IsCanonicalText text r) :
    toRat? text = some r := by
  obtain ⟨s, hs, rfl, rfl⟩ := h
  exact toRat?_text hs.1.hasDigit

/-- A number has one canonical text. -/
theorem IsCanonicalText.unique {text text' : String} {r : ℚ} (h : IsCanonicalText text r)
    (h' : IsCanonicalText text' r) : text = text' := by
  obtain ⟨s, hs, rfl, rfl⟩ := h
  obtain ⟨t, ht, rfl, hvalue⟩ := h'
  rw [hs.eq_of_value_eq ht hvalue.symm]

/-- The plain form of a trimmed spelling is the canonical text of its number. -/
theorem isCanonicalText_normalize {s : Spelling} (h : s.IsTrimmed) :
    IsCanonicalText (normalize s.text) s.value :=
  ⟨s.normal, Spelling.isCanonical_normal h, (Spelling.normalize_text s).symm,
    Spelling.value_normal s⟩

/-- **Normalizing brings each text to a plain one of the same number.**  A text of a spelling with a
digit becomes such a text again, in which a point is followed by digits that do not end in a zero
and which is no zero with a sign; it is not changed any further.  Texts without superfluous zeros in
front become the same text exactly when they denote the same number. -/
theorem normalize_canonicalizes :
    (∀ s : Spelling, s.HasDigit → ∃ t : Spelling, t.HasDigit ∧ t.text = normalize s.text ∧
      t.value = s.value ∧ (∀ ds, t.places = some ds → ∃ es d, d ≠ .zero ∧ ds = es ++ [d]) ∧
      normalize s.text ≠ "-0" ∧ normalize (normalize s.text) = normalize s.text) ∧
    ∀ s t : Spelling, s.IsTrimmed → t.IsTrimmed →
      (normalize s.text = normalize t.text ↔ s.value = t.value) := by
  constructor
  · intro s _
    have hplain := s.isPlain_normal
    have htext := s.normalize_text
    refine ⟨s.normal, hplain.hasDigit, htext.symm, s.value_normal, hplain.exists_eq_append, ?_, ?_⟩
    · rw [htext]
      exact hplain.text_ne
    · rw [htext, Spelling.normalize_text, hplain.normal_eq]
  · intro s t hs ht
    have hcanonical := isCanonicalText_normalize hs
    have hcanonical' := isCanonicalText_normalize ht
    constructor
    · intro htext
      have hread := hcanonical.toRat?_eq
      rw [htext, hcanonical'.toRat?_eq] at hread
      exact (Option.some.inj hread).symm
    · intro hvalue
      rw [← hvalue] at hcanonical'
      exact hcanonical.unique hcanonical'

/-- A superfluous zero in front stays, a zero loses its sign. -/
theorem normalize_canonicalizes_half :
    (Spelling.HasDigit ⟨true, [0, 0], some [5, 0]⟩ ∧ normalize "-00.50" = "-00.5" ∧
      normalize "-00.5" = "-00.5") ∧
    Spelling.IsTrimmed ⟨true, [0], some [0]⟩ ∧ Spelling.IsTrimmed ⟨false, [0], none⟩ ∧
      (normalize "-0.0" = normalize "0" ↔ (0 : ℚ) = 0) := by
  have hdigit : Spelling.HasDigit ⟨true, [0, 0], some [5, 0]⟩ := .inl (by decide)
  have htrimmed : Spelling.IsTrimmed ⟨true, [0], some [0]⟩ := .inl rfl
  have htrimmed' : Spelling.IsTrimmed ⟨false, [0], none⟩ := .inl rfl
  have hhalf : normalize "-00.50" = "-00.5" := by decide +kernel
  have hvalue : Spelling.value ⟨true, [0], some [0]⟩ = 0 := by decide +kernel
  have hvalue' : Spelling.value ⟨false, [0], none⟩ = 0 := by decide +kernel
  obtain ⟨-, -, -, -, -, -, hagain⟩ := normalize_canonicalizes.1 _ hdigit
  change normalize (normalize "-00.50") = normalize "-00.50" at hagain
  rw [hhalf] at hagain
  have hzero := normalize_canonicalizes.2 _ _ htrimmed htrimmed'
  rw [hvalue, hvalue'] at hzero
  exact ⟨⟨hdigit, hhalf, hagain⟩, htrimmed, htrimmed', hzero⟩

end PostfixCalculator.Decimal
