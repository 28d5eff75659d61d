import PostfixCalculator.Literal.Basic

/-!
# The number a literal denotes

Besides its value, a literal has a *flat form*: the same number written without an exponent.  A
literal that has no exponent is its own flat form, so nothing typed is ever respelled without need.

## Main definitions

* `Literal.value` — the rational number denoted.
* `Literal.isZero` — whether every digit before the exponent is zero.
* `Literal.fractionLength` — the number of digits after the point of the flat form.
* `Literal.flat` — the flat form.
-/

namespace PostfixCalculator

namespace Literal

-- Powers of natural numbers are those of core here, whichever other instances are in scope.
attribute [local instance (2000)] instPowNat

/-- The digits of a literal on both sides of the point, read as one whole number. -/
def coefficient (n : Literal) : Nat := Numeral.value (n.integer ++ n.fractionDigits)

/-- The power of ten that the coefficient is multiplied with. -/
def scale (n : Literal) : Int := n.exponentValue?.getD 0 - n.fractionDigits.length

/-- The numerator of the magnitude of a literal over `magnitudeDen`. -/
def magnitudeNum (n : Literal) : Nat := n.coefficient * 10 ^ n.scale.toNat

/-- The denominator of the magnitude of a literal, a power of ten. -/
def magnitudeDen (n : Literal) : Nat := 10 ^ (-n.scale).toNat

/-- The number that a literal denotes. -/
def value (n : Literal) : Rat :=
  mkRat (if n.negative then -(n.magnitudeNum : Int) else n.magnitudeNum) n.magnitudeDen

/-- Whether every digit on both sides of the point is zero. -/
def isZero (n : Literal) : Bool := n.integer.all (· = .zero) && n.fractionDigits.all (· = .zero)

/-- The number of digits after the point of the flat form. -/
def fractionLength (n : Literal) : Nat :=
  match n.exponentValue? with
  | none => n.fractionDigits.length
  | some e => ((n.fractionDigits.length : Int) - e).toNat

/-- Whether the flat form has digits after a point. -/
def hasFraction (n : Literal) : Bool := 0 < n.fractionLength

/-! ### The flat form -/

/-- A number without its leading zeros, save the one in front of a point or of nothing. -/
def stripLeadingZeros (cs : List Char) : List Char :=
  match cs.dropWhile (· = '0') with
  | [] => ['0']
  | '.' :: rest => '0' :: '.' :: rest
  | rest => rest

/-- The digits `ds` with a point after the first `point` of them, filled up with zeros where the
point lies outside. -/
def placePoint (ds : List Char) (point : Int) : List Char :=
  if point ≤ 0 then '0' :: '.' :: (List.replicate (-point).toNat '0' ++ ds)
  else if ds.length ≤ point.toNat then ds ++ List.replicate (point.toNat - ds.length) '0'
  else ds.take point.toNat ++ '.' :: ds.drop point.toNat

/-- The characters of the flat form of a literal. -/
def flatChars (n : Literal) : List Char :=
  match n.exponentValue? with
  | none => n.chars
  | some e =>
    minusChars n.negative ++ stripLeadingZeros
      (placePoint (Numeral.text (n.integer ++ n.fractionDigits)) (n.integer.length + e))

/-- The flat form of a literal: its number written without an exponent. -/
def flat (n : Literal) : String := String.ofList n.flatChars

end Literal

end PostfixCalculator
