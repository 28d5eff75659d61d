import PostfixCalculator.Proofs.Decimal.Rendering

/-!
# Cutting the text of a spelling

The digits of a spelling take one byte each, so cutting the bytes after its point cuts its places,
and never divides a character.  What is left is a spelling of the cut number.

## Main definitions

* `Spelling.truncated s k` — the spelling with at most `k` places kept.
* `ShowsFirstDigits text text'` — the digits of `text` are those of `text'` up to some place.

## Main results

* `truncateChars?_chars` — cutting the text of a spelling gives the text of the truncated one.
* `Spelling.value_truncated` — the truncated spelling denotes the number, cut.
* `normalize_truncate?` — **cutting a text and cutting its number come to the same.**
* `IsCanonicalText.exists_truncate?` — a canonical text, cut, shows its first digits.
-/

namespace PostfixCalculator.Decimal

/-! ### Bytes of digits -/

theorem utf8Size_toChar : ∀ d : Digit, (Digit.toChar d).utf8Size = 1 := by decide

theorem byteLength_text (ds : List Digit) : byteLength (Numeral.text ds) = ds.length := by
  have hcount : ∀ (ds : List Digit) (n : Nat),
      (Numeral.text ds).foldl (fun n c => n + c.utf8Size) n = n + ds.length := by
    intro ds
    induction ds with
    | nil => intro n; rfl
    | cons d ds ih =>
      intro n
      show (Numeral.text ds).foldl _ (n + (Digit.toChar d).utf8Size) = _
      rw [ih, utf8Size_toChar, List.length_cons]
      omega
  rw [byteLength, hcount, Nat.zero_add]

/-- The first bytes of digits are the first digits. -/
theorem takeBytes_text (bytes : Nat) (ds : List Digit) :
    takeBytes bytes (Numeral.text ds) = some (Numeral.text (ds.take bytes)) := by
  -- each digit takes one byte of those left and goes to what is done
  have hafter : ∀ (ds : List Digit) (bytes : Nat) (done : List Char),
      takeBytesAfter done bytes (Numeral.text ds) =
        some (done.reverse ++ Numeral.text (ds.take bytes)) := by
    intro ds
    induction ds with
    | nil => intro bytes done; cases bytes <;> simp [Numeral.text, takeBytesAfter]
    | cons d ds ih =>
      intro bytes done
      rcases bytes with _ | bytes
      · simp [Numeral.text, takeBytesAfter]
      · show (if (Digit.toChar d).utf8Size ≤ bytes + 1 then
          takeBytesAfter (Digit.toChar d :: done) (bytes + 1 - (Digit.toChar d).utf8Size)
            (Numeral.text ds) else none) = _
        rw [utf8Size_toChar, if_pos (by omega), Nat.add_sub_cancel, ih]
        simp [Numeral.text]
  exact hafter ds bytes []

/-! ### The truncated spelling -/

namespace Spelling

/-- The spelling with at most `k` places kept.  One that is cut to no places loses its point too. -/
def truncated (s : Spelling) (k : Nat) : Spelling :=
  if s.placeDigits.length ≤ k then s
  else { s with places := if k = 0 then none else some (s.placeDigits.take k) }

theorem negative_truncated (s : Spelling) (k : Nat) : (s.truncated k).negative = s.negative := by
  unfold truncated
  split <;> rfl

theorem whole_truncated (s : Spelling) (k : Nat) : (s.truncated k).whole = s.whole := by
  unfold truncated
  split <;> rfl

theorem placeDigits_truncated (s : Spelling) (k : Nat) :
    (s.truncated k).placeDigits = s.placeDigits.take k := by
  unfold truncated
  split
  · next hle => rw [List.take_of_length_le hle]
  · by_cases hk : k = 0
    · simp [placeDigits, hk]
    · simp [placeDigits, hk]

theorem isTrimmed_truncated {s : Spelling} (h : s.IsTrimmed) (k : Nat) :
    (s.truncated k).IsTrimmed := by
  rwa [IsTrimmed, whole_truncated]

/-- **The truncated spelling denotes the number, cut.** -/
theorem value_truncated (s : Spelling) (k : Nat) : (s.truncated k).value = cut s.value k := by
  rcases Nat.le_total s.placeDigits.length k with hle | hle
  · have hsame : s.truncated k = s := if_pos hle
    rw [hsame, (s.hasPlaces_value.mono hle).cut_eq]
  · obtain ⟨j, hj⟩ : ∃ j, s.placeDigits.length = k + j := ⟨_, (Nat.add_sub_cancel' hle).symm⟩
    have hlen : (s.placeDigits.take k).length = k := List.length_take_of_le hle
    have hdrop : (s.placeDigits.drop k).length = j := by rw [List.length_drop, hj]; omega
    -- the digits kept are the quotient by the power of ten of those dropped
    have hquotient : Numeral.horner (s.whole ++ s.placeDigits) / 10 ^ j =
        Numeral.horner (s.whole ++ s.placeDigits.take k) := by
      have hlt : Numeral.horner (s.placeDigits.drop k) < 10 ^ j :=
        hdrop ▸ Numeral.horner_lt (s.placeDigits.drop k)
      rw [← Numeral.mul_pow_add_div (Numeral.horner (s.whole ++ s.placeDigits.take k)) hlt, ← hdrop,
        ← Numeral.horner_append, List.append_assoc, List.take_append_drop]
    have hscaled : s.magnitude * 10 ^ k =
        ((Numeral.horner (s.whole ++ s.placeDigits) : ℤ) : ℚ) / (10 ^ j : ℕ) := by
      have hk : (10 : ℚ) ^ k ≠ 0 := by positivity
      have hsplit : (10 : ℚ) ^ (k + j) = 10 ^ j * 10 ^ k := by rw [pow_add, mul_comm]
      rw [magnitude, hj, hsplit, ← div_div, div_mul_cancel₀ _ hk]
      push_cast
      rfl
    have hfloor : (s.magnitude * 10 ^ k).floor =
        (Numeral.horner (s.whole ++ s.placeDigits.take k) : ℤ) := by
      rw [hscaled, ← hquotient]
      exact Rat.floor_intCast_div_natCast _ _
    rw [value_eq, value_eq, cut_signed, cut_of_nonneg s.magnitude_nonneg, hfloor,
      negative_truncated, magnitude, whole_truncated, placeDigits_truncated, hlen]
    rfl

end Spelling

/-! ### The text of the truncated spelling -/

/-- **Cutting the text of a spelling gives the text of the truncated one.** -/
theorem truncateChars?_chars (s : Spelling) (k : Nat) :
    truncateChars? s.chars k = some (s.truncated k).chars := by
  -- whichever places are kept, they come behind the same front
  have hchars : ∀ places, Spelling.chars ⟨s.negative, s.whole, places⟩ =
      s.frontChars ++ Spelling.pointChars places :=
    fun places => Spelling.chars_eq_frontChars ⟨s.negative, s.whole, places⟩
  unfold truncateChars? Spelling.truncated
  rw [splitPoint_chars]
  dsimp only
  rw [byteLength_text]
  split
  · rfl
  · split
    · rw [hchars none]
      exact congrArg some (List.append_nil s.frontChars).symm
    · rw [hchars (some _), takeBytes_text]
      rfl

/-- Cutting the text of a spelling never divides a character. -/
theorem truncate?_text (s : Spelling) (k : Nat) :
    truncate? s.text k = some (s.truncated k).text := by
  rw [truncate?, Spelling.text, String.toList_ofList, truncateChars?_chars, Option.map_some,
    Spelling.text]

/-- **Cutting a text and cutting its number come to the same.**  The text of a number without
superfluous zeros in front can be cut to any number of places, and its plain form is then that of
the number written with so many places: the canonical text of the number, cut. -/
theorem normalize_truncate? {s : Spelling} (h : s.IsTrimmed) (places : Nat) :
    ∃ kept, truncate? s.text places = some kept ∧ toRat? s.text = some s.value ∧
      normalize kept = normalize (ofRat s.value places) ∧
      IsCanonicalText (normalize kept) (cut s.value places) := by
  have hcanonical : IsCanonicalText (normalize (s.truncated places).text) (cut s.value places) := by
    rw [← Spelling.value_truncated]
    exact isCanonicalText_normalize (Spelling.isTrimmed_truncated h places)
  exact ⟨(s.truncated places).text, truncate?_text s places, toRat?_text h.hasDigit,
    hcanonical.unique (isCanonicalText_ofRat s.value places), hcanonical⟩

/-- A negative number of which the cut leaves nothing but zeros. -/
theorem normalize_truncate?_hundredths :
    Spelling.IsTrimmed ⟨true, [0], some [0, 0, 4, 9]⟩ ∧ truncate? "-0.0049" 2 = some "-0.00" ∧
      toRat? "-0.0049" = some (-49 / 10000) ∧
      normalize "-0.00" = normalize (ofRat (-49 / 10000) 2) ∧ IsCanonicalText "0" 0 := by
  have htrimmed : Spelling.IsTrimmed ⟨true, [0], some [0, 0, 4, 9]⟩ := .inl rfl
  have hvalue : Spelling.value ⟨true, [0], some [0, 0, 4, 9]⟩ = -49 / 10000 := by decide +kernel
  have hcut : cut (-49 / 10000) 2 = 0 := by decide +kernel
  obtain ⟨kept, hkept, hread, hnormal, hcanonical⟩ := normalize_truncate? htrimmed 2
  have htext : kept = "-0.00" := by
    refine Option.some.inj (hkept.symm.trans ?_)
    decide +kernel
  subst htext
  rw [hvalue] at hread hnormal hcanonical
  rw [hcut] at hcanonical
  exact ⟨htrimmed, hkept, hread, hnormal, hcanonical⟩

/-! ### Canonical texts -/

/-- The digits of a text are those of another text up to some place: the same before the point, and
the first ones after it. -/
def ShowsFirstDigits (text text' : String) : Prop :=
  ∃ s s' : Spelling, s.text = text ∧ s'.text = text' ∧ s.whole = s'.whole ∧
    s.placeDigits <+: s'.placeDigits

theorem IsCanonicalText.showsFirstDigits {text : String} {r : ℚ} (h : IsCanonicalText text r) :
    ShowsFirstDigits text text := by
  obtain ⟨s, -, rfl, -⟩ := h
  exact ⟨s, s, rfl, rfl, rfl, List.prefix_rfl⟩

/-- **The canonical text of a number can be cut to any number of places.**  The plain form of what
is left is the canonical text of the number cut, and shows the first digits of the whole text. -/
theorem IsCanonicalText.exists_truncate? {text : String} {r : ℚ} (h : IsCanonicalText text r)
    (k : Nat) : ∃ kept, truncate? text k = some kept ∧ IsCanonicalText (normalize kept) (cut r k) ∧
      ShowsFirstDigits (normalize kept) text := by
  obtain ⟨s, hs, rfl, rfl⟩ := h
  have htrimmed := Spelling.isTrimmed_truncated hs.1 k
  refine ⟨(s.truncated k).text, truncate?_text s k, ?_, (s.truncated k).normal, s,
    (Spelling.normalize_text _).symm, rfl, ?_, ?_⟩
  · rw [← Spelling.value_truncated]
    exact isCanonicalText_normalize htrimmed
  · rw [Spelling.whole_normal htrimmed.whole_ne_nil, Spelling.whole_truncated]
  · rw [Spelling.placeDigits_normal, Spelling.keptPlaces, Spelling.placeDigits_truncated]
    exact (List.rdropWhile_prefix _ _).trans (List.take_prefix k s.placeDigits)

end PostfixCalculator.Decimal
