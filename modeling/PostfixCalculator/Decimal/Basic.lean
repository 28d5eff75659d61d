import PostfixCalculator.Numeral

/-!
# Decimal texts and rational numbers

A decimal text is an optional minus sign, digits and at most one point.  This module reads such a
text as a rational number, writes a rational number with a given number of places (dropping the
further ones, never rounding), cuts the places of a text, and brings a text to its plain form.

## Main definitions

* `Decimal.toRat?` — the number that a decimal text denotes.
* `Decimal.ofScaled s places` — the text of `s / 10 ^ places`, with exactly `places` places.
* `Decimal.scaled r places` — the whole part of `r * 10 ^ places`.
* `Decimal.ofRat r places` — the text of `r`, cut after `places` places.
* `Decimal.truncate?` — a text with the bytes after its first point cut to a given number.
* `Decimal.normalize` — a text without superfluous zeros at its end.
-/

namespace PostfixCalculator.Decimal

-- Powers of natural numbers are those of core here, whichever other instances are in scope.
attribute [local instance (2000)] instPowNat

/-- The parts of a text before and after its first point; the latter is empty where there is
none. -/
def splitPoint (cs : List Char) : List Char × List Char :=
  (cs.takeWhile (· ≠ '.'), (cs.dropWhile (· ≠ '.')).drop 1)

/-- Whether a text begins with a minus sign, and the text without it. -/
def splitMinus : List Char → Bool × List Char
  | '-' :: cs => (true, cs)
  | cs => (false, cs)

/-! ### From text to number -/

/-- The number with the given sign, the digits `whole` before the point and `places` after it. -/
def ofDigits (negative : Bool) (whole places : List Digit) : Rat :=
  let n : Int := Numeral.value (whole ++ places)
  mkRat (if negative then -n else n) (10 ^ places.length)

/-- The number that the characters of a decimal text denote. -/
def charsToRat? (cs : List Char) : Option Rat :=
  let (negative, body) := splitMinus cs
  let (whole, places) := splitPoint body
  if (whole ++ places).isEmpty || !(whole ++ places).all Char.isDigit then none
  else some (ofDigits negative (Numeral.ofText whole) (Numeral.ofText places))

/-- The number that a decimal text denotes, or `none` for any other text.  An exponent is not
read. -/
def toRat? (text : String) : Option Rat := charsToRat? text.toList

/-! ### From number to text -/

/-- The characters of `s / 10 ^ places`, with exactly `places` digits after the point and no point
where there are none. -/
def scaledChars (s : Int) (places : Nat) : List Char :=
  let whole := Numeral.text (Numeral.ofNat (s.natAbs / 10 ^ places))
  let signed := if s < 0 then '-' :: whole else whole
  if places = 0 then signed
  else signed ++ '.' :: Numeral.text (Numeral.padded places (s.natAbs % 10 ^ places))

/-- The text of `s / 10 ^ places`. -/
def ofScaled (s : Int) (places : Nat) : String := String.ofList (scaledChars s places)

/-- The whole part of `r * 10 ^ places`: what lies after it is dropped, for either sign. -/
def scaled (r : Rat) (places : Nat) : Int := (r.num * (10 ^ places : Nat)).tdiv r.den

/-- The characters of `r`, cut after `places` places. -/
def ratChars (r : Rat) (places : Nat) : List Char := scaledChars (scaled r places) places

/-- The text of `r`, cut after `places` places. -/
def ofRat (r : Rat) (places : Nat) : String := String.ofList (ratChars r places)

/-! ### Cutting a text -/

/-- The characters of `cs` that make up its first `bytes` bytes in UTF-8, in front of which come
the characters of `done`, the last one first; `none` when a character would be cut in two. -/
def takeBytesAfter (done : List Char) : Nat → List Char → Option (List Char)
  | 0, _ => some done.reverse
  | _ + 1, [] => some done.reverse
  | bytes + 1, c :: cs =>
    if c.utf8Size ≤ bytes + 1 then takeBytesAfter (c :: done) (bytes + 1 - c.utf8Size) cs else none

/-- The characters of `cs` that make up its first `bytes` bytes, or `none` when a character would
be cut in two. -/
def takeBytes (bytes : Nat) (cs : List Char) : Option (List Char) := takeBytesAfter [] bytes cs

/-- The number of bytes of `cs` in UTF-8. -/
def byteLength (cs : List Char) : Nat := cs.foldl (fun n c => n + c.utf8Size) 0

/-- The characters of a text with at most `places` bytes kept after the first point.  A text that
is cut to no places loses its point too; `none` means that the cut would divide a character. -/
def truncateChars? (cs : List Char) (places : Nat) : Option (List Char) :=
  let (whole, rest) := splitPoint cs
  if byteLength rest ≤ places then some cs
  else if places = 0 then some whole
  else (takeBytes places rest).map fun kept => whole ++ '.' :: kept

/-- A text with at most `places` bytes kept after its first point. -/
def truncate? (text : String) (places : Nat) : Option String :=
  (truncateChars? text.toList places).map String.ofList

/-! ### The plain form -/

/-- The reversed characters `cs` without the zeros and then the point that they begin with. -/
def dropPlaces (cs : List Char) : List Char :=
  match cs.dropWhile (· = '0') with
  | '.' :: rest => rest
  | rest => rest

/-- A text with a point loses the zeros at its end and then a point left bare.  Of a text that
has no digit left, or is a zero with a sign, the plain form is `0`. -/
def normalizeChars (cs : List Char) : List Char :=
  let kept := if cs.contains '.' then (dropPlaces cs.reverse).reverse else cs
  if kept = [] ∨ kept = ['-'] ∨ kept = ['-', '0'] then ['0'] else kept

/-- The plain form of a decimal text: no superfluous zeros or point at the end, no signed zero. -/
def normalize (text : String) : String := String.ofList (normalizeChars text.toList)

end PostfixCalculator.Decimal
