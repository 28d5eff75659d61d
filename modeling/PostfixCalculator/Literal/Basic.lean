import PostfixCalculator.Numeral

/-!
# Literals

A literal is a number as it is typed: an optional minus sign, decimal digits with at most one point
among or beside them, and an optional exponent.

    literal  ::= [-] digits* [ . digits* ] [ exponent ]      at least one digit before the exponent
    exponent ::= (e|E) [+|-] digits+                         of value at most `maxExponent`

A plus sign in front of the digits is no part of a literal: `+` is always an operator.  A `Literal`
holds the pieces of such a text and the two conditions on them, so that every value of the type is
the reading of exactly one text.

## Main definitions

* `Exponent`, `Literal` — the pieces of a literal.
* `Literal.text` — the text of a literal.
* `Literal.parse?` — the literal that a text is, if it is one.
* `isNumeric` — whether a text is a literal.
-/

namespace PostfixCalculator

/-- The largest magnitude of an exponent.  It bounds the length of a number written without one. -/
def maxExponent : Nat := 100000

/-- The sign written in front of the digits of an exponent. -/
inductive Sign
  | plus
  | minus
  deriving DecidableEq, Repr

/-- The exponent of a literal, as written. -/
structure Exponent where
  /-- The mark is `E` rather than `e`. -/
  capital : Bool
  /-- The sign, if one is written. -/
  sign : Option Sign
  /-- The digits, leading zeros included. -/
  digits : List Digit
  digits_ne_nil : digits ≠ []
  digits_le : Numeral.value digits ≤ maxExponent
  deriving DecidableEq

/-- A number as it is typed. -/
structure Literal where
  /-- A minus sign is written. -/
  negative : Bool
  /-- The digits before the point. -/
  integer : List Digit
  /-- The digits after the point, or `none` where no point is written. -/
  fraction : Option (List Digit)
  /-- The exponent, if one is written. -/
  exponent : Option Exponent
  /-- There is a digit on one side of the point. -/
  hasDigit : integer ≠ [] ∨ fraction.getD [] ≠ []
  deriving DecidableEq

/-! ### The text of a literal -/

namespace Exponent

/-- The characters of the sign, if one is written. -/
def signChars : Option Sign → List Char
  | none => []
  | some .plus => ['+']
  | some .minus => ['-']

/-- The characters of an exponent, from its mark on. -/
def chars (e : Exponent) : List Char :=
  (if e.capital then 'E' else 'e') :: (signChars e.sign ++ Numeral.text e.digits)

/-- The number that an exponent denotes. -/
def value (e : Exponent) : Int :=
  if e.sign = some .minus then -(Numeral.value e.digits : Int) else Numeral.value e.digits

end Exponent

namespace Literal

/-- The characters of the point and of the digits after it. -/
def fractionChars : Option (List Digit) → List Char
  | none => []
  | some ds => '.' :: Numeral.text ds

/-- The characters of a minus sign, if there is one. -/
def minusChars (negative : Bool) : List Char := if negative then ['-'] else []

/-- The characters of a literal. -/
def chars (n : Literal) : List Char :=
  minusChars n.negative ++ Numeral.text n.integer ++ fractionChars n.fraction
    ++ (n.exponent.map Exponent.chars).getD []

/-- The text of a literal. -/
def text (n : Literal) : String := String.ofList n.chars

/-- The digits after the point; there are none where no point is written. -/
def fractionDigits (n : Literal) : List Digit := n.fraction.getD []

/-- The number that the exponent of a literal denotes, if one is written. -/
def exponentValue? (n : Literal) : Option Int := n.exponent.map Exponent.value

end Literal

/-! ### Reading a literal -/

/-- The digits that a text begins with. -/
def leadingDigits (cs : List Char) : List Digit := Numeral.ofText (cs.takeWhile Char.isDigit)

/-- A text without the digits that it begins with. -/
def afterDigits (cs : List Char) : List Char := cs.dropWhile Char.isDigit

namespace Exponent

/-- The exponent with the given mark and sign and the digits `cs`, if these are digits and not too
large. -/
def ofDigits? (capital : Bool) (sign : Option Sign) (cs : List Char) : Option Exponent :=
  let digits := Numeral.ofText cs
  if cs.all Char.isDigit then
    if h : digits ≠ [] ∧ Numeral.value digits ≤ maxExponent then
      some ⟨capital, sign, digits, h.1, h.2⟩
    else none
  else none

/-- The exponent that `cs` continues after its mark. -/
def afterMark? (capital : Bool) : List Char → Option Exponent
  | '+' :: cs => ofDigits? capital (some .plus) cs
  | '-' :: cs => ofDigits? capital (some .minus) cs
  | cs => ofDigits? capital none cs

/-- The exponent, written or left out, that makes up the whole of a text. -/
def read? : List Char → Option (Option Exponent)
  | [] => some none
  | 'e' :: cs => (afterMark? false cs).map some
  | 'E' :: cs => (afterMark? true cs).map some
  | _ => none

end Exponent

namespace Literal

/-- The point and the digits after it that a text begins with, and what follows them. -/
def readFraction : List Char → Option (List Digit) × List Char
  | '.' :: cs => (some (leadingDigits cs), afterDigits cs)
  | cs => (none, cs)

/-- The literal whose sign has been read and whose other characters are `cs`. -/
def ofUnsigned? (negative : Bool) (cs : List Char) : Option Literal :=
  let integer := leadingDigits cs
  let fraction := (readFraction (afterDigits cs)).1
  match Exponent.read? (readFraction (afterDigits cs)).2 with
  | none => none
  | some exponent =>
    if h : integer ≠ [] ∨ fraction.getD [] ≠ [] then
      some ⟨negative, integer, fraction, exponent, h⟩
    else none

/-- The literal with the characters `cs`. -/
def ofChars? : List Char → Option Literal
  | '-' :: cs => ofUnsigned? true cs
  | cs => ofUnsigned? false cs

/-- The literal that a text is, if it is one. -/
def parse? (text : String) : Option Literal := ofChars? text.toList

end Literal

/-- Whether a text is a literal. -/
def isNumeric (text : String) : Bool := (Literal.parse? text).isSome

end PostfixCalculator
