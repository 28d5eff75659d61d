import PostfixCalculator.Decimal.Basic

/-!
# Spellings of decimal numbers

A decimal number can be spelled in many ways: with more or fewer zeros at either end, with or
without a point, zero with or without a sign.  A `Spelling` holds the pieces of one such text, and
the conditions below single out the shapes that matter, each said on the pieces.

## Main definitions

* `Decimal.Spelling` — the pieces of a decimal text, with its text and the number it denotes.
* `Spelling.IsTrimmed` — no zero leads the whole part but the one that stands alone.
* `Spelling.IsCanonical` — the one spelling of each number.
* `IsDecimal` — the texts with a spelling that has a digit.
-/

namespace PostfixCalculator.Decimal

-- Powers of natural numbers are those of core here, whichever other instances are in scope.
attribute [local instance (2000)] instPowNat

/-- The pieces of a decimal text. -/
structure Spelling where
  /-- A minus sign is written. -/
  negative : Bool
  /-- The digits before the point. -/
  whole : List Digit
  /-- The digits after the point, or `none` where no point is written. -/
  places : Option (List Digit)
  deriving DecidableEq

namespace Spelling

/-- The characters of a spelling. -/
def chars (s : Spelling) : List Char :=
  (if s.negative then ['-'] else []) ++ Numeral.text s.whole ++
    match s.places with
    | none => []
    | some ds => '.' :: Numeral.text ds

/-- The text of a spelling. -/
def text (s : Spelling) : String := String.ofList s.chars

/-- The number that a spelling denotes. -/
def value (s : Spelling) : Rat :=
  let ds := s.places.getD []
  let n : Int := Numeral.horner (s.whole ++ ds)
  mkRat (if s.negative then -n else n) (10 ^ ds.length)

/-- There is a digit on one side of the point. -/
def HasDigit (s : Spelling) : Prop := s.whole ≠ [] ∨ s.places.getD [] ≠ []

/-- The whole part is a zero standing alone, or begins with another digit. -/
def IsTrimmed (s : Spelling) : Prop :=
  s.whole = [.zero] ∨ ∃ d ds, d ≠ .zero ∧ s.whole = d :: ds

/-- The whole part is trimmed, a point is followed by digits of which the last is not zero, and
zero has no sign. -/
def IsCanonical (s : Spelling) : Prop :=
  s.IsTrimmed ∧ (∀ ds, s.places = some ds → ∃ es d, d ≠ .zero ∧ ds = es ++ [d]) ∧
    (s.negative → s.value ≠ 0)

end Spelling

/-- A text is a decimal text: an optional minus sign, then digits with at most one point and with
at least one digit. -/
def IsDecimal (text : String) : Prop := ∃ s : Spelling, s.HasDigit ∧ s.text = text

/-- A text is the canonical text of a number. -/
def IsCanonicalText (text : String) (r : Rat) : Prop :=
  ∃ s : Spelling, s.IsCanonical ∧ s.text = text ∧ s.value = r

/-- The decimal number with `places` places that lies nearest to `r` on the side of zero. -/
def cut (r : Rat) (places : Nat) : Rat :=
  let scaled := r * 10 ^ places
  mkRat (if scaled < 0 then scaled.ceil else scaled.floor) (10 ^ places)

end PostfixCalculator.Decimal
