import PostfixCalculator.Decimal.Spelling
import PostfixCalculator.Proofs.Numeral

/-!
# Reading a spelling

The characters of a spelling are taken apart into the pieces that they were put together from, so
a spelling with a digit is read as the number that it denotes.  No other text is read.

## Main definitions

* `signed negative q` — the number `q`, with its sign turned where a minus sign is written.
* `Spelling.placeDigits`, `Spelling.magnitude` — the digits after the point, and the number denoted
  without its sign.
* `Spelling.frontChars` — the characters in front of the point.

## Main results

* `Spelling.value_eq` — a spelling denotes its magnitude with its sign.
* `charsToRat?_chars` — a spelling with a digit is read as its value.
* `toRat?_eq_some_iff` — the texts that are read, each with its number.
* `Spelling.chars_injective` — a text has at most one spelling.
-/

namespace PostfixCalculator.Decimal

/-- The number `q`, with its sign turned where a minus sign is written. -/
def signed (negative : Bool) (q : ℚ) : ℚ := if negative then -q else q

@[simp] theorem signed_false (q : ℚ) : signed false q = q := rfl

@[simp] theorem signed_true (q : ℚ) : signed true q = -q := rfl

@[simp] theorem signed_eq_zero {negative : Bool} {q : ℚ} : signed negative q = 0 ↔ q = 0 := by
  cases negative <;> simp

theorem abs_signed (negative : Bool) (q : ℚ) : |signed negative q| = |q| := by
  cases negative <;> simp

theorem signed_div (negative : Bool) (q r : ℚ) :
    signed negative (q / r) = signed negative q / r := by
  cases negative
  · rfl
  · exact (neg_div r q).symm

theorem signed_not (negative : Bool) (q : ℚ) : signed (!negative) q = -signed negative q := by
  cases negative <;> simp

theorem signed_natAbs (z : ℤ) : signed (decide (z < 0)) (z.natAbs : ℚ) = z := by
  rw [Nat.cast_natAbs]
  by_cases hz : z < 0
  · rw [decide_eq_true hz, abs_of_neg hz, signed_true, Int.cast_neg, neg_neg]
  · rw [decide_eq_false hz, abs_of_nonneg (not_lt.mp hz), signed_false]

theorem signed_mul_signed (negative negative' : Bool) (q q' : ℚ) :
    signed negative q * signed negative' q' = signed (negative != negative') (q * q') := by
  cases negative <;> cases negative' <;> simp

theorem abs_signed_sub_signed (negative : Bool) (q q' : ℚ) :
    |signed negative q - signed negative q'| = |q - q'| := by
  cases negative
  · rfl
  · rw [signed_true, signed_true, neg_sub_neg, abs_sub_comm]

/-- A signed fraction over a power of ten, as it is written with `mkRat`. -/
theorem mkRat_signed (negative : Bool) (n k : Nat) :
    mkRat (if negative then -(n : Int) else n) (10 ^ k) = signed negative (n / 10 ^ k) := by
  rw [Rat.mkRat_eq_div]
  cases negative <;> simp [neg_div]

namespace Spelling

/-- The digits after the point; there are none where no point is written. -/
def placeDigits (s : Spelling) : List Digit := s.places.getD []

/-- The number that a spelling denotes without its sign. -/
def magnitude (s : Spelling) : ℚ :=
  Numeral.horner (s.whole ++ s.placeDigits) / 10 ^ s.placeDigits.length

/-- The point and the digits after it, where a point is written. -/
def pointChars : Option (List Digit) → List Char
  | none => []
  | some ds => '.' :: Numeral.text ds

theorem magnitude_nonneg (s : Spelling) : 0 ≤ s.magnitude := by
  unfold magnitude
  positivity

theorem value_eq (s : Spelling) : s.value = signed s.negative s.magnitude :=
  mkRat_signed s.negative (Numeral.horner (s.whole ++ s.placeDigits)) s.placeDigits.length

theorem abs_value (s : Spelling) : |s.value| = s.magnitude := by
  rw [value_eq, abs_signed, abs_of_nonneg s.magnitude_nonneg]

theorem chars_eq (s : Spelling) :
    s.chars = (if s.negative then ['-'] else []) ++
      (Numeral.text s.whole ++ pointChars s.places) := by
  rw [chars, List.append_assoc]
  cases s.places <;> rfl

end Spelling

/-! ### Digits among other characters -/

theorem toChar_ne {c : Char} (hc : c.isDigit = false) (d : Digit) : Digit.toChar d ≠ c := by
  rintro rfl
  rw [Digit.isDigit_toChar] at hc
  cases hc

theorem forall_mem_text {p : Char → Prop} {ds : List Digit} :
    (∀ c ∈ Numeral.text ds, p c) ↔ ∀ d ∈ ds, p (Digit.toChar d) := by
  simp [Numeral.text]

theorem text_append (ds es : List Digit) :
    Numeral.text (ds ++ es) = Numeral.text ds ++ Numeral.text es := List.map_append

/-- A numeral has no point. -/
theorem ne_point_of_mem_text (ds : List Digit) :
    ∀ c ∈ Numeral.text ds, decide (c ≠ '.') = true :=
  forall_mem_text.mpr fun d _ => decide_eq_true (toChar_ne rfl d)

theorem text_injective {ds es : List Digit} (h : Numeral.text ds = Numeral.text es) :
    ds = es := by
  rw [← Numeral.ofText_text ds, h, Numeral.ofText_text]

theorem toChar_eq_zero_iff : ∀ d : Digit, Digit.toChar d = '0' ↔ d = 0 := by decide

/-- The zeros that a text begins with are those of its numeral. -/
theorem dropWhile_zero_text (ds : List Digit) :
    (Numeral.text ds).dropWhile (fun c => decide (c = '0')) =
      Numeral.text (ds.dropWhile (· = 0)) := by
  have hzero : ((fun c => decide (c = '0')) ∘ Digit.toChar) = fun d : Digit => decide (d = 0) :=
    funext fun d => decide_eq_decide.mpr (toChar_eq_zero_iff d)
  rw [Numeral.text, List.dropWhile_map, hzero]
  rfl

/-! ### Taking a text apart -/

/-- What follows a sign does not begin with a minus. -/
theorem body_ne_minus (whole : List Digit) (places : Option (List Digit)) (cs : List Char) :
    Numeral.text whole ++ Spelling.pointChars places ≠ '-' :: cs := by
  intro h
  cases whole with
  | nil => cases places <;> simp [Numeral.text, Spelling.pointChars] at h
  | cons d ds => exact toChar_ne rfl d (List.cons.inj h).1

theorem splitMinus_of_ne {cs : List Char} (h : ∀ ds, cs ≠ '-' :: ds) :
    splitMinus cs = (false, cs) := by
  unfold splitMinus
  split
  · exact absurd rfl (h _)
  · rfl

theorem splitMinus_chars (s : Spelling) :
    splitMinus s.chars = (s.negative, Numeral.text s.whole ++ Spelling.pointChars s.places) := by
  rw [Spelling.chars_eq]
  cases s.negative
  · exact splitMinus_of_ne (body_ne_minus s.whole s.places)
  · rfl

/-- A text without a point in front of `pointChars places` is cut there. -/
theorem splitPoint_append {cs : List Char} (h : ∀ c ∈ cs, decide (c ≠ '.') = true)
    (places : Option (List Digit)) :
    splitPoint (cs ++ Spelling.pointChars places) = (cs, Numeral.text (places.getD [])) := by
  unfold splitPoint
  rw [List.takeWhile_append_of_pos h, List.dropWhile_append_of_pos h]
  cases places with
  | none => simp [Spelling.pointChars, Numeral.text]
  | some ds => simp [Spelling.pointChars]

theorem splitPoint_body (whole : List Digit) (places : Option (List Digit)) :
    splitPoint (Numeral.text whole ++ Spelling.pointChars places) =
      (Numeral.text whole, Numeral.text (places.getD [])) :=
  splitPoint_append (ne_point_of_mem_text whole) places

/-- The characters in front of the point. -/
def Spelling.frontChars (s : Spelling) : List Char :=
  (if s.negative then ['-'] else []) ++ Numeral.text s.whole

theorem Spelling.chars_eq_frontChars (s : Spelling) :
    s.chars = s.frontChars ++ Spelling.pointChars s.places := by
  rw [chars_eq, frontChars, List.append_assoc]

theorem ne_point_of_mem_frontChars (s : Spelling) :
    ∀ c ∈ s.frontChars, decide (c ≠ '.') = true := by
  intro c hc
  rcases List.mem_append.mp hc with h | h
  · cases hn : s.negative <;> simp [hn] at h
    rw [h]
    rfl
  · exact ne_point_of_mem_text s.whole c h

/-- A spelling is cut at its point. -/
theorem splitPoint_chars (s : Spelling) :
    splitPoint s.chars = (s.frontChars, Numeral.text s.placeDigits) := by
  rw [s.chars_eq_frontChars, splitPoint_append (ne_point_of_mem_frontChars s)]
  rfl

/-- **A spelling with a digit is read as the number that it denotes.** -/
theorem charsToRat?_chars {s : Spelling} (h : s.HasDigit) :
    charsToRat? s.chars = some s.value := by
  have hall : (Numeral.text s.whole ++ Numeral.text s.placeDigits).all Char.isDigit = true := by
    rw [← text_append, List.all_eq_true]
    exact forall_mem_text.mpr fun d _ => Digit.isDigit_toChar d
  have hne : (Numeral.text s.whole ++ Numeral.text s.placeDigits).isEmpty = false := by
    rw [← text_append, ← Bool.not_eq_true, List.isEmpty_iff]
    intro hnil
    have hds : s.whole ++ s.placeDigits = [] := text_injective hnil
    rw [List.append_eq_nil_iff] at hds
    exact h.elim (absurd hds.1) (absurd hds.2)
  unfold charsToRat?
  rw [splitMinus_chars]
  dsimp only
  rw [splitPoint_body]
  dsimp only
  show (if (Numeral.text s.whole ++ Numeral.text s.placeDigits).isEmpty ||
    !(Numeral.text s.whole ++ Numeral.text s.placeDigits).all Char.isDigit then _ else _) = _
  rw [hall, hne, Numeral.ofText_text, Numeral.ofText_text]
  simp only [Bool.not_true, Bool.or_self, Bool.false_eq_true, ↓reduceIte, ofDigits,
    Numeral.value_eq_horner]
  rfl

/-- A spelling with a digit is read as the number that it denotes. -/
theorem toRat?_text {s : Spelling} (h : s.HasDigit) : toRat? s.text = some s.value := by
  rw [toRat?, Spelling.text, String.toList_ofList, charsToRat?_chars h]

/-! ### Which texts are read -/

/-- The sign of a text and what follows it are the text. -/
theorem minus_append_splitMinus (cs : List Char) :
    (if (splitMinus cs).1 then ['-'] else []) ++ (splitMinus cs).2 = cs := by
  unfold splitMinus
  split <;> rfl

/-- A text is cut at a point, or it has none. -/
theorem splitPoint_cases (cs : List Char) :
    ((splitPoint cs).1 = cs ∧ (splitPoint cs).2 = []) ∨
      (splitPoint cs).1 ++ '.' :: (splitPoint cs).2 = cs := by
  have happend := List.takeWhile_append_dropWhile (p := fun c => decide (c ≠ '.')) (l := cs)
  unfold splitPoint
  rcases hdrop : cs.dropWhile (fun c => decide (c ≠ '.')) with _ | ⟨c, rest⟩
  · left
    rw [hdrop, List.append_nil] at happend
    exact ⟨happend, rfl⟩
  · right
    -- the first character dropped is the point
    have hne : cs.dropWhile (fun c => decide (c ≠ '.')) ≠ [] := hdrop ▸ List.cons_ne_nil c rest
    have hc := List.head_dropWhile_not (fun c => decide (c ≠ '.')) hne
    simp only [hdrop, List.head_cons, decide_eq_false_iff_not, not_not] at hc
    rw [hdrop, hc] at happend
    exact happend

/-- **A text that is read is a spelling with a digit.** -/
theorem exists_spelling_of_charsToRat? {cs : List Char} {r : ℚ} (h : charsToRat? cs = some r) :
    ∃ s : Spelling, s.HasDigit ∧ s.chars = cs := by
  have hminus := minus_append_splitMinus cs
  have hpoint := splitPoint_cases (splitMinus cs).2
  unfold charsToRat? at h
  dsimp only at h
  generalize (splitMinus cs).1 = negative at h hminus
  generalize (splitMinus cs).2 = body at h hminus hpoint
  generalize (splitPoint body).1 = whole at h hpoint
  generalize (splitPoint body).2 = places at h hpoint
  split at h
  · cases h
  next hread =>
  rw [Bool.or_eq_true, not_or, List.isEmpty_iff, List.append_eq_nil_iff, not_and_or,
    Bool.not_eq_true', Bool.not_eq_false, List.all_append, Bool.and_eq_true, List.all_eq_true,
    List.all_eq_true] at hread
  obtain ⟨hne, hwhole, hplaces⟩ := hread
  rcases hpoint with ⟨rfl, rfl⟩ | rfl
  · -- without a point, the digit stands in the whole part
    have hdigit : whole ≠ [] := hne.resolve_right (not_not.mpr rfl)
    refine ⟨⟨negative, Numeral.ofText whole, none⟩, .inl (mt List.map_eq_nil_iff.mp hdigit), ?_⟩
    rw [Spelling.chars_eq, Numeral.text_ofText hwhole, Spelling.pointChars, List.append_nil,
      hminus]
  · refine ⟨⟨negative, Numeral.ofText whole, some (Numeral.ofText places)⟩,
      hne.imp (mt List.map_eq_nil_iff.mp) (mt List.map_eq_nil_iff.mp), ?_⟩
    rw [Spelling.chars_eq, Numeral.text_ofText hwhole, Spelling.pointChars,
      Numeral.text_ofText hplaces, hminus]

/-- The texts that are read are the decimal ones. -/
theorem toRat?_eq_some_iff {text : String} {r : ℚ} :
    toRat? text = some r ↔ ∃ s : Spelling, s.HasDigit ∧ s.text = text ∧ s.value = r := by
  constructor
  · intro h
    obtain ⟨s, hs, hchars⟩ := exists_spelling_of_charsToRat? h
    have htext : s.text = text := by rw [Spelling.text, hchars, String.ofList_toList]
    refine ⟨s, hs, htext, ?_⟩
    rw [← htext, toRat?_text hs] at h
    exact Option.some.inj h
  · rintro ⟨s, hs, rfl, rfl⟩
    exact toRat?_text hs

/-- A text is read exactly when it is a decimal one. -/
theorem isSome_toRat?_iff {text : String} : (toRat? text).isSome = true ↔ IsDecimal text := by
  rw [Option.isSome_iff_exists]
  constructor
  · rintro ⟨r, hr⟩
    obtain ⟨s, hs, htext, -⟩ := toRat?_eq_some_iff.mp hr
    exact ⟨s, hs, htext⟩
  · rintro ⟨s, hs, rfl⟩
    exact ⟨s.value, toRat?_text hs⟩

/-- A text has at most one spelling. -/
theorem Spelling.chars_injective {s t : Spelling} (h : s.chars = t.chars) : s = t := by
  have hsplit := congrArg splitMinus h
  rw [splitMinus_chars, splitMinus_chars, Prod.mk.injEq] at hsplit
  obtain ⟨hneg, hbody⟩ := hsplit
  have hwhole : s.whole = t.whole := by
    have := congrArg (fun cs => (splitPoint cs).1) hbody
    rw [splitPoint_body, splitPoint_body] at this
    exact text_injective this
  have hplaces : s.places = t.places := by
    rw [hwhole] at hbody
    have hpoint := List.append_cancel_left hbody
    rcases hs : s.places with _ | ds <;> rcases ht : t.places with _ | es <;>
      simp only [hs, ht, pointChars, List.cons.injEq, reduceCtorEq, true_and] at hpoint
    · rfl
    · rw [text_injective hpoint]
  obtain ⟨_, _, _⟩ := s
  obtain ⟨_, _, _⟩ := t
  simp_all

end PostfixCalculator.Decimal
