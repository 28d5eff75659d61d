import PostfixCalculator.Literal.Basic

/-!
# What is read is what is written

A text is read as a literal exactly when it is the text of that literal.  So every literal has one
text, and every text that is a literal at all is one in a single way.

## Main results

* `Exponent.read?_eq_some_iff` — the same for the exponent, written or left out.
* `Literal.ofChars?_eq_some_iff`, `Literal.parse?_eq_some_iff` — the statement above, for a list of
  characters and for a text.
-/

namespace PostfixCalculator

namespace Literal

/-! ### Digits at the front of a text -/

/-- A text whose first character, if it has one, is no digit. -/
def NoDigitFirst (cs : List Char) : Prop := ∀ c ∈ cs.head?, c.isDigit = false

theorem takeWhile_text_append (ds : List Digit) {cs : List Char} (h : NoDigitFirst cs) :
    (Numeral.text ds ++ cs).takeWhile Char.isDigit = Numeral.text ds := by
  induction ds with
  | nil =>
    cases cs with
    | nil => rfl
    | cons c cs => simp [Numeral.text, h c (by simp)]
  | cons d ds ih =>
    simpa [Numeral.text, List.takeWhile_cons, Digit.isDigit_toChar d] using ih

theorem dropWhile_text_append (ds : List Digit) {cs : List Char} (h : NoDigitFirst cs) :
    (Numeral.text ds ++ cs).dropWhile Char.isDigit = cs := by
  induction ds with
  | nil =>
    cases cs with
    | nil => rfl
    | cons c cs => simp [Numeral.text, h c (by simp)]
  | cons d ds ih =>
    simpa [Numeral.text, List.dropWhile_cons, Digit.isDigit_toChar d] using ih

theorem leadingDigits_text_append (ds : List Digit) {cs : List Char} (h : NoDigitFirst cs) :
    leadingDigits (Numeral.text ds ++ cs) = ds := by
  rw [leadingDigits, takeWhile_text_append ds h, Numeral.ofText_text]

theorem afterDigits_text_append (ds : List Digit) {cs : List Char} (h : NoDigitFirst cs) :
    afterDigits (Numeral.text ds ++ cs) = cs := dropWhile_text_append ds h

/-- The digits in front and the text after them are the text. -/
theorem text_leadingDigits_append (cs : List Char) :
    Numeral.text (leadingDigits cs) ++ afterDigits cs = cs := by
  rw [leadingDigits, Numeral.text_ofText, afterDigits, List.takeWhile_append_dropWhile]
  intro c hc
  exact List.all_eq_true.mp (List.all_takeWhile (p := Char.isDigit) (l := cs)) c hc

end Literal

/-! ### Exponents -/

namespace Exponent

theorem all_isDigit_text (ds : List Digit) : (Numeral.text ds).all Char.isDigit := by
  simp [Numeral.text, Digit.isDigit_toChar]

theorem ofDigits?_eq_some_iff {capital : Bool} {sign : Option Sign} {cs : List Char}
    {e : Exponent} : ofDigits? capital sign cs = some e ↔
      e.capital = capital ∧ e.sign = sign ∧ cs = Numeral.text e.digits := by
  unfold ofDigits?
  constructor
  · intro h
    dsimp only at h
    split at h
    · next hall =>
      split at h
      · cases h
        exact ⟨rfl, rfl, (Numeral.text_ofText (by simpa using hall)).symm⟩
      · cases h
    · cases h
  · rintro ⟨rfl, rfl, rfl⟩
    simp [all_isDigit_text, e.digits_ne_nil, e.digits_le]

/-- A numeral does not begin with a character that is no digit. -/
theorem head_text_ne {ds : List Digit} {c : Char} (h : c.isDigit = false) (cs : List Char) :
    Numeral.text ds ≠ c :: cs := by
  intro he
  cases ds with
  | nil => cases he
  | cons d ds =>
    have : Digit.toChar d = c := (List.cons.inj he).1
    rw [← this, Digit.isDigit_toChar] at h
    cases h

theorem afterMark?_eq_some_iff {capital : Bool} {cs : List Char} {e : Exponent} :
    afterMark? capital cs = some e ↔
      e.capital = capital ∧ cs = signChars e.sign ++ Numeral.text e.digits := by
  unfold afterMark?
  split
  · next cs =>
    rw [ofDigits?_eq_some_iff]
    rcases hs : e.sign with _ | (_ | _) <;> simp [signChars]
    intro _ h
    exact head_text_ne (by decide) _ h.symm
  · next cs =>
    rw [ofDigits?_eq_some_iff]
    rcases hs : e.sign with _ | (_ | _) <;> simp [signChars]
    intro _ h
    exact head_text_ne (by decide) _ h.symm
  · next hplus hminus =>
    rw [ofDigits?_eq_some_iff]
    rcases hs : e.sign with _ | (_ | _) <;> simp [signChars]
    · exact fun _ h => hplus _ h
    · exact fun _ h => hminus _ h

/-- A text is read as an exponent, or as none, exactly when it is the text of that. -/
theorem read?_eq_some_iff {cs : List Char} {e : Option Exponent} :
    read? cs = some e ↔ cs = (e.map chars).getD [] := by
  unfold read?
  split
  · cases e <;> simp [chars]
  · next cs =>
    simp only [Option.map_eq_some_iff, afterMark?_eq_some_iff]
    constructor
    · rintro ⟨e, ⟨hc, rfl⟩, rfl⟩
      simp [chars, hc]
    · intro h
      cases e with
      | none => cases h
      | some e =>
        refine ⟨e, ?_, rfl⟩
        cases hc : e.capital <;> simp_all [chars]
  · next cs =>
    simp only [Option.map_eq_some_iff, afterMark?_eq_some_iff]
    constructor
    · rintro ⟨e, ⟨hc, rfl⟩, rfl⟩
      simp [chars, hc]
    · intro h
      cases e with
      | none => cases h
      | some e =>
        refine ⟨e, ?_, rfl⟩
        cases hc : e.capital <;> simp_all [chars]
  · next h1 h2 h3 =>
    constructor
    · intro h; cases h
    · intro h
      cases e with
      | none => exact absurd h h1
      | some e =>
        cases hc : e.capital
        · exact absurd (by simpa [chars, hc] using h) (h2 _)
        · exact absurd (by simpa [chars, hc] using h) (h3 _)

theorem noDigitFirst_chars (e : Option Exponent) :
    Literal.NoDigitFirst ((e.map chars).getD []) := by
  intro c hc
  cases e with
  | none => simp at hc
  | some e =>
    cases hcap : e.capital <;> simp [chars, hcap] at hc <;> subst hc <;> decide

end Exponent

/-! ### Fractions and whole literals -/

namespace Literal

theorem noDigitFirst_fractionChars_append (f : Option (List Digit)) {cs : List Char}
    (h : NoDigitFirst cs) : NoDigitFirst (fractionChars f ++ cs) := by
  cases f with
  | none => exact h
  | some ds =>
    intro c hc
    simp [fractionChars] at hc
    subst hc
    decide

/-- What `readFraction` reads and leaves is the text again. -/
theorem fractionChars_readFraction (cs : List Char) :
    fractionChars (readFraction cs).1 ++ (readFraction cs).2 = cs := by
  unfold readFraction
  split
  · next cs => simp [fractionChars, text_leadingDigits_append]
  · rfl

theorem readFraction_append (f : Option (List Digit)) {cs : List Char} (h : NoDigitFirst cs)
    (hp : cs.head? ≠ some '.') : readFraction (fractionChars f ++ cs) = (f, cs) := by
  cases f with
  | none =>
    show readFraction cs = (none, cs)
    unfold readFraction
    split
    · simp at hp
    · rfl
  | some ds =>
    simp [readFraction, fractionChars, leadingDigits_text_append ds h, afterDigits_text_append ds h]

theorem ofUnsigned?_eq_some_iff {negative : Bool} {cs : List Char} {n : Literal} :
    ofUnsigned? negative cs = some n ↔
      n.negative = negative ∧ cs = Numeral.text n.integer ++ (fractionChars n.fraction
        ++ (n.exponent.map Exponent.chars).getD []) := by
  constructor
  · intro h
    unfold ofUnsigned? at h
    dsimp only at h
    split at h
    · cases h
    · next exponent he =>
      split at h
      · cases h
        refine ⟨rfl, ?_⟩
        rw [← Exponent.read?_eq_some_iff.mp he, fractionChars_readFraction,
          text_leadingDigits_append]
      · cases h
  · rintro ⟨rfl, rfl⟩
    have he := Exponent.noDigitFirst_chars n.exponent
    have hp : ((n.exponent.map Exponent.chars).getD []).head? ≠ some '.' := by
      cases n.exponent with
      | none => simp
      | some e => cases hc : e.capital <;> simp [Exponent.chars, hc]
    have hf := noDigitFirst_fractionChars_append n.fraction he
    unfold ofUnsigned?
    simp only [leadingDigits_text_append n.integer hf, afterDigits_text_append n.integer hf,
      readFraction_append n.fraction he hp, Exponent.read?_eq_some_iff.mpr rfl, n.hasDigit]
    rfl

/-- The first character of a literal is a minus sign only where it has one. -/
theorem unsigned_ne_minus (n : Literal) (cs : List Char) :
    Numeral.text n.integer ++ (fractionChars n.fraction
      ++ (n.exponent.map Exponent.chars).getD []) ≠ '-' :: cs := by
  intro h
  rcases hi : n.integer with _ | ⟨d, ds⟩
  · have hf := n.hasDigit
    rw [hi] at hf h
    rcases hfr : n.fraction with _ | ds
    · simp [hfr] at hf
    · simp [hfr, fractionChars, Numeral.text] at h
  · rw [hi] at h
    have hd : Digit.toChar d = '-' := (List.cons.inj h).1
    have := Digit.isDigit_toChar d
    rw [hd] at this
    cases this

/-- A text is read as a literal exactly when it is that literal's. -/
theorem ofChars?_eq_some_iff {cs : List Char} {n : Literal} :
    ofChars? cs = some n ↔ cs = n.chars := by
  unfold ofChars? chars
  rw [List.append_assoc, List.append_assoc]
  split
  · next cs =>
    rw [ofUnsigned?_eq_some_iff]
    cases hn : n.negative
    · simp only [minusChars, Bool.false_eq_true, false_and, ↓reduceIte, List.nil_append, false_iff]
      exact fun h => unsigned_ne_minus n cs h.symm
    · simp [minusChars]
  · next hminus =>
    rw [ofUnsigned?_eq_some_iff]
    cases hn : n.negative
    · simp [minusChars]
    · simp only [minusChars, Bool.true_eq_false, false_and, ↓reduceIte, false_iff]
      exact fun h => hminus _ h

/-- A text is read as a literal exactly when it is that literal's. -/
theorem parse?_eq_some_iff {text : String} {n : Literal} :
    parse? text = some n ↔ text = n.text := by
  rw [parse?, ofChars?_eq_some_iff, Literal.text]
  constructor
  · intro h; rw [← h, String.ofList_toList]
  · rintro rfl; exact String.toList_ofList

end Literal

end PostfixCalculator
