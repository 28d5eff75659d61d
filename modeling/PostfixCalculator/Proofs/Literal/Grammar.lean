import PostfixCalculator.Proofs.Text.Words

/-!
# The grammar of numbers

The grammar says how the text of a number is cut into parts: a minus sign, the digits before the
point, the point with the digits after it, and an exponent of a mark, a sign and digits.  It is
stated here on characters alone, without the reader.  The reader accepts the texts that the grammar
allows and no others.  A text is cut in one way only, and the literal that is read holds the parts.

## Main definitions

* `Parts`, `ExponentParts` — a text in the parts of a number.
* `Parts.IsWellFormed` — what the grammar asks of the parts.
* `Parts.MakeUp p text` — well-formed parts that, written in a row, are the text.
* `Literal.parts` — the parts of the text of a literal.

## Main results

* `Parts.IsWellFormed.exists_literal` — well-formed parts are those of a literal.
* `Parts.MakeUp.exists_literal` — the text that parts make up is read as a literal with these parts.
* `Literal.parse?_grammar` — **the reader accepts exactly what the grammar allows**, and reads it in
  the one way that the grammar allows.
-/

namespace PostfixCalculator

/-! ### The parts of a text -/

/-- A row of decimal digits of ASCII; it may be empty. -/
def IsDigits (cs : List Char) : Prop := ∀ c ∈ cs, c.isDigit = true

/-- An exponent in parts. -/
structure ExponentParts where
  /-- The character that the exponent begins with. -/
  mark : Char
  /-- The sign, if one is written. -/
  sign : Option Char
  /-- What follows. -/
  digits : List Char

namespace ExponentParts

/-- The parts of an exponent in a row. -/
def chars (e : ExponentParts) : List Char := e.mark :: (e.sign.toList ++ e.digits)

/-- The number that an exponent denotes. -/
def value (e : ExponentParts) : Int :=
  if e.sign = some '-' then -(Nat.ofDigitChars 10 e.digits 0 : Int)
  else Nat.ofDigitChars 10 e.digits 0

/-- What the grammar asks of an exponent. -/
structure IsWellFormed (e : ExponentParts) : Prop where
  mark : e.mark = 'e' ∨ e.mark = 'E'
  sign : ∀ c ∈ e.sign, c = '+' ∨ c = '-'
  digits : IsDigits e.digits
  digits_ne_nil : e.digits ≠ []
  digits_le : Nat.ofDigitChars 10 e.digits 0 ≤ 100000

end ExponentParts

/-- A text in the parts of a number. -/
structure Parts where
  /-- A minus sign is written in front. -/
  minus : Bool
  /-- What stands before the point. -/
  integer : List Char
  /-- What stands after the point, or `none` where no point is written. -/
  fraction : Option (List Char)
  /-- The exponent, if one is written. -/
  exponent : Option ExponentParts

namespace Parts

/-- The parts of a number in a row. -/
def chars (p : Parts) : List Char :=
  (if p.minus then ['-'] else []) ++ p.integer ++ p.fraction.elim [] ('.' :: ·) ++
    p.exponent.elim [] ExponentParts.chars

/-- What the grammar asks of the parts of a number. -/
structure IsWellFormed (p : Parts) : Prop where
  integer : IsDigits p.integer
  fraction : ∀ cs ∈ p.fraction, IsDigits cs
  hasDigit : p.integer ≠ [] ∨ p.fraction.getD [] ≠ []
  exponent : ∀ e ∈ p.exponent, e.IsWellFormed

/-- Well-formed parts that, written in a row, are the text. -/
def MakeUp (p : Parts) (text : String) : Prop := p.IsWellFormed ∧ p.chars = text.toList

end Parts

/-! ### The parts of a literal -/

theorem isDigits_text (ds : List Digit) : IsDigits (Numeral.text ds) :=
  List.all_eq_true.mp (Exponent.all_isDigit_text ds)

/-- A row of digits is the text of a numeral. -/
theorem IsDigits.exists_text {cs : List Char} (h : IsDigits cs) : ∃ ds, Numeral.text ds = cs :=
  ⟨Numeral.ofText cs, Numeral.text_ofText h⟩

theorem text_eq_nil_iff {ds : List Digit} : Numeral.text ds = [] ↔ ds = [] := List.map_eq_nil_iff

theorem toNat_toChar_sub : ∀ d : Digit, (Digit.toChar d).toNat - '0'.toNat = d.val := by decide

/-- The digit characters of a numeral denote its number. -/
theorem ofDigitChars_text (ds : List Digit) :
    Nat.ofDigitChars 10 (Numeral.text ds) 0 = Numeral.value ds := by
  rw [Numeral.value_eq_horner, Nat.ofDigitChars, Numeral.text, List.foldl_map, Numeral.horner]
  simp only [toNat_toChar_sub, Nat.mul_comm 10]

/-- The character of a sign. -/
def Sign.toChar : Sign → Char
  | .plus => '+'
  | .minus => '-'

theorem Sign.toChar_eq_minus_iff : ∀ s : Sign, s.toChar = '-' ↔ s = .minus
  | .plus => by decide
  | .minus => by decide

namespace Exponent

/-- The parts of the text of an exponent. -/
def parts (e : Exponent) : ExponentParts where
  mark := if e.capital then 'E' else 'e'
  sign := e.sign.map Sign.toChar
  digits := Numeral.text e.digits

theorem chars_parts (e : Exponent) : e.parts.chars = e.chars := by
  rcases hs : e.sign with _ | (_ | _) <;>
    simp [parts, ExponentParts.chars, chars, signChars, Sign.toChar, hs]

theorem value_parts (e : Exponent) : e.parts.value = e.value := by
  have hsign : e.parts.sign = some '-' ↔ e.sign = some .minus := by
    rcases hs : e.sign with _ | s
    · simp [parts, hs]
    · simp [parts, hs, Sign.toChar_eq_minus_iff]
  simp only [ExponentParts.value, value, hsign]
  rw [parts, ofDigitChars_text]

theorem isWellFormed_parts (e : Exponent) : e.parts.IsWellFormed where
  mark := by cases hc : e.capital <;> simp [parts, hc]
  sign := by rcases hs : e.sign with _ | (_ | _) <;> simp [parts, hs, Sign.toChar]
  digits := isDigits_text e.digits
  digits_ne_nil := fun h => e.digits_ne_nil (text_eq_nil_iff.mp h)
  digits_le := (ofDigitChars_text e.digits).trans_le e.digits_le

end Exponent

namespace Literal

/-- The parts of the text of a literal. -/
def parts (n : Literal) : Parts where
  minus := n.negative
  integer := Numeral.text n.integer
  fraction := n.fraction.map Numeral.text
  exponent := n.exponent.map Exponent.parts

theorem getD_fraction_parts (n : Literal) :
    n.parts.fraction.getD [] = Numeral.text n.fractionDigits := by
  rw [parts, fractionDigits]
  cases n.fraction <;> rfl

theorem chars_parts (n : Literal) : n.parts.chars = n.chars := by
  have hfraction : n.parts.fraction.elim [] ('.' :: ·) = fractionChars n.fraction := by
    rw [parts]
    cases n.fraction <;> rfl
  have hexponent : n.parts.exponent.elim [] ExponentParts.chars =
      (n.exponent.map Exponent.chars).getD [] := by
    rw [parts]
    rcases n.exponent with _ | e
    · rfl
    · exact e.chars_parts
  rw [Parts.chars, hfraction, hexponent]
  rfl

theorem isWellFormed_parts (n : Literal) : n.parts.IsWellFormed where
  integer := isDigits_text n.integer
  fraction := by
    intro cs hcs
    obtain ⟨ds, -, rfl⟩ := Option.mem_map.mp hcs
    exact isDigits_text ds
  hasDigit := by
    rw [getD_fraction_parts]
    exact n.hasDigit.imp (mt text_eq_nil_iff.mp) (mt text_eq_nil_iff.mp)
  exponent := by
    intro e he
    obtain ⟨e, -, rfl⟩ := Option.mem_map.mp he
    exact e.isWellFormed_parts

end Literal

/-! ### Well-formed parts are those of a literal -/

/-- A well-formed exponent is that of a literal. -/
theorem ExponentParts.IsWellFormed.exists_exponent {e : ExponentParts} (h : e.IsWellFormed) :
    ∃ e' : Exponent, e'.parts = e := by
  obtain ⟨mark, sign, digits⟩ := e
  obtain ⟨hmark, hsign, hdigits, hne, hle⟩ := h
  obtain ⟨ds, rfl⟩ := hdigits.exists_text
  obtain ⟨capital, rfl⟩ : ∃ capital : Bool, mark = if capital then 'E' else 'e' := by
    rcases hmark with rfl | rfl
    · exact ⟨false, rfl⟩
    · exact ⟨true, rfl⟩
  obtain ⟨s, rfl⟩ : ∃ s : Option Sign, sign = s.map Sign.toChar := by
    rcases sign with _ | c
    · exact ⟨none, rfl⟩
    · rcases hsign c rfl with rfl | rfl
      · exact ⟨some .plus, rfl⟩
      · exact ⟨some .minus, rfl⟩
  exact ⟨⟨capital, s, ds, mt text_eq_nil_iff.mpr hne, (ofDigitChars_text ds).symm.trans_le hle⟩,
    rfl⟩

namespace Parts

/-- **Well-formed parts are those of a literal.** -/
theorem IsWellFormed.exists_literal {p : Parts} (h : p.IsWellFormed) :
    ∃ n : Literal, n.parts = p := by
  obtain ⟨minus, integer, fraction, exponent⟩ := p
  obtain ⟨hinteger, hfraction, hdigit, hexponent⟩ := h
  obtain ⟨ds, rfl⟩ := hinteger.exists_text
  obtain ⟨f, rfl⟩ : ∃ f : Option (List Digit), fraction = f.map Numeral.text := by
    rcases fraction with _ | cs
    · exact ⟨none, rfl⟩
    · obtain ⟨es, rfl⟩ := (hfraction cs rfl).exists_text
      exact ⟨some es, rfl⟩
  obtain ⟨e, rfl⟩ : ∃ e : Option Exponent, exponent = e.map Exponent.parts := by
    rcases exponent with _ | e
    · exact ⟨none, rfl⟩
    · obtain ⟨e', rfl⟩ := (hexponent e rfl).exists_exponent
      exact ⟨some e', rfl⟩
  have hasDigit : ds ≠ [] ∨ f.getD [] ≠ [] := by
    refine hdigit.imp (mt text_eq_nil_iff.mpr) fun hne hnil => hne ?_
    cases f with
    | none => rfl
    | some es => exact text_eq_nil_iff.mpr hnil
  exact ⟨⟨minus, ds, f, e, hasDigit⟩, rfl⟩

/-- **The text that parts make up is read as a literal with these parts.** -/
theorem MakeUp.exists_literal {p : Parts} {text : String} (h : p.MakeUp text) :
    ∃ n, Literal.parse? text = some n ∧ n.parts = p := by
  obtain ⟨n, rfl⟩ := h.1.exists_literal
  refine ⟨n, ?_, rfl⟩
  rw [Literal.parse?, Literal.ofChars?_eq_some_iff, ← h.2, Literal.chars_parts]

end Parts

namespace Literal

/-- The parts of a literal make up the text that it is read from. -/
theorem makeUp_parts {text : String} {n : Literal} (h : parse? text = some n) :
    n.parts.MakeUp text := by
  refine ⟨n.isWellFormed_parts, ?_⟩
  rw [chars_parts, parse?_eq_some_iff.mp h, Literal.text, String.toList_ofList]

/-- A literal holds the parts of its text, whichever way this is cut. -/
theorem parts_eq_of_makeUp {text : String} {n : Literal} {p : Parts} (h : parse? text = some n)
    (hp : p.MakeUp text) : n.parts = p := by
  obtain ⟨m, hm, hparts⟩ := hp.exists_literal
  rw [← hparts, Option.some.inj (h.symm.trans hm)]

/-- **The reader accepts exactly what the grammar allows.**  A text is read when it can be cut into
the parts of a number, with nothing left over; it can be cut in one way only, and the literal read
holds the text, the sign, the digits on both sides of the point and the number that the exponent
denotes.  So no number has a blank in it and none is the symbol of an operator. -/
theorem parse?_grammar (text : String) :
    ((∃ n, parse? text = some n) ↔ ∃ p : Parts, p.MakeUp text) ∧
    (∀ p q : Parts, p.MakeUp text → q.MakeUp text → p = q) ∧
    (∀ n (p : Parts), parse? text = some n → p.MakeUp text →
      n.text = text ∧ n.negative = p.minus ∧ Numeral.text n.integer = p.integer ∧
        Numeral.text n.fractionDigits = p.fraction.getD [] ∧
        n.exponentValue? = p.exponent.map ExponentParts.value) ∧
    ((∃ n, parse? text = some n) →
      (∀ c ∈ text.toList, Text.isBlank c = false) ∧ ∀ op : Operator, text ≠ op.symbol) := by
  refine ⟨⟨?_, ?_⟩, ?_, ?_, ?_⟩
  · rintro ⟨n, hn⟩
    exact ⟨n.parts, makeUp_parts hn⟩
  · rintro ⟨p, hp⟩
    obtain ⟨n, hn, -⟩ := hp.exists_literal
    exact ⟨n, hn⟩
  · intro p q hp hq
    obtain ⟨n, hn, rfl⟩ := hp.exists_literal
    exact parts_eq_of_makeUp hn hq
  · intro n p hn hp
    obtain rfl := parts_eq_of_makeUp hn hp
    refine ⟨(parse?_eq_some_iff.mp hn).symm, rfl, rfl, (getD_fraction_parts n).symm, ?_⟩
    rw [exponentValue?, parts, Option.map_map]
    exact congrArg (n.exponent.map ·) (funext fun e => e.value_parts.symm)
  · intro hn
    have hnumeric : isNumeric text = true := isNumeric_iff.mpr hn
    refine ⟨(isWord_of_numeric hnumeric).2, ?_⟩
    rintro op rfl
    rw [not_numeric_symbol] at hnumeric
    cases hnumeric

/-- No digit before the point, a capital mark, and more zeros than needed. -/
theorem parse?_grammar_eighty : ∃ n, parse? "-.80E-007" = some n ∧ n.text = "-.80E-007" ∧
    n.negative = true ∧ Numeral.text n.integer = [] ∧ Numeral.text n.fractionDigits = ['8', '0'] ∧
      n.exponentValue? = some (-7) := by
  have hp : Parts.MakeUp ⟨true, [], some ['8', '0'], some ⟨'E', some '-', ['0', '0', '7']⟩⟩
      "-.80E-007" := by
    refine ⟨⟨by simp [IsDigits], by simp [IsDigits], .inr (by simp), ?_⟩, by decide⟩
    rintro e ⟨⟩
    exact ⟨.inr rfl, by simp, by simp [IsDigits], by simp, by decide⟩
  have h := parse?_grammar "-.80E-007"
  obtain ⟨n, hn⟩ := h.1.mpr ⟨_, hp⟩
  obtain ⟨htext, hminus, hinteger, hfraction, hexponent⟩ := h.2.2.1 n _ hn hp
  exact ⟨n, hn, htext, hminus, hinteger, hfraction, hexponent⟩

end Literal

end PostfixCalculator
