import PostfixCalculator.Engine.Basic

/-!
# The exact engine on machine words

The counters of the exact engine — lengths, exponents, numbers of places — written once more on
words: lengths and places are words of 64 bits, an exponent and the position of a point are signed
words of 64 bits, and the exponent of a power of ten is cut to 32 bits.  Sums and differences of
words wrap.  Digits, whole numbers and rational numbers stay as they are.

Within the bounds that an engine keeps, nothing wraps and nothing is cut, and the two ways of
counting agree.

## Main definitions

* `fractionLength`, `flatChars` — the flat form of a literal.
* `placesFor` — the number of places of a result.
* `powerOfTen` — a power of ten whose exponent is cut to 32 bits.
* `operateExact` — the result of one operation by an exact engine.
-/

namespace PostfixCalculator.FixedWidth

-- Powers of natural numbers are those of core here, whichever other instances are in scope.
attribute [local instance (2000)] instPowNat

/-- The length of a list, as a word. -/
def wordLength {α : Type} (l : List α) : UInt64 := UInt64.ofNat l.length

/-- The length of a list, as a signed word. -/
def signedLength {α : Type} (l : List α) : Int64 := Int64.ofNat l.length

/-! ### The flat form -/

/-- The number of digits after the point of the flat form. -/
def fractionLength (n : Literal) : UInt64 :=
  match n.exponentValue? with
  | none => wordLength n.fractionDigits
  | some e => (max (signedLength n.fractionDigits - Int64.ofInt e) 0).toUInt64

/-- The position of the point among the digits of a literal with the exponent `e`. -/
def point (n : Literal) (e : Int) : Int64 := signedLength n.integer + Int64.ofInt e

/-- The digits `ds` with a point after the first `position` of them, filled up with zeros where the
point lies outside. -/
def placePoint (ds : List Char) (position : Int64) : List Char :=
  if position ≤ 0 then '0' :: '.' :: (List.replicate (-position).toUInt64.toNat '0' ++ ds)
  else if wordLength ds ≤ position.toUInt64 then
    ds ++ List.replicate (position.toUInt64 - wordLength ds).toNat '0'
  else ds.take position.toUInt64.toNat ++ '.' :: ds.drop position.toUInt64.toNat

/-- The characters of the flat form of a literal. -/
def flatChars (n : Literal) : List Char :=
  match n.exponentValue? with
  | none => n.chars
  | some e =>
    Literal.minusChars n.negative ++ Literal.stripLeadingZeros
      (placePoint (Numeral.text (n.integer ++ n.fractionDigits)) (point n e))

/-! ### Places -/

/-- The number of places that `a op b` keeps when at least `least` are asked for. -/
def placesFor (op : Operator) (a b : Literal) (least : UInt64) : UInt64 :=
  let placesA := fractionLength a
  let placesB := fractionLength b
  if 0 < placesA || 0 < placesB then
    match op with
    | .plus => max (max least placesA) placesB + 1
    | .minus => max (max least placesA) placesB
    | .times => max least (placesA + placesB)
    | .divide => least
  else least

/-- A power of ten, its exponent cut to 32 bits. -/
def powerOfTen (exponent : UInt64) : Nat := 10 ^ exponent.toUInt32.toNat

/-! ### Decimal texts -/

/-- The number that the characters of a decimal text denote. -/
def charsToRat? (cs : List Char) : Option Rat :=
  let (negative, body) := Decimal.splitMinus cs
  let (whole, places) := Decimal.splitPoint body
  if (whole ++ places).isEmpty || !(whole ++ places).all Char.isDigit then none
  else
    let n : Int := Numeral.value (Numeral.ofText (whole ++ places))
    some (mkRat (if negative then -n else n) (powerOfTen (wordLength places)))

/-- The whole part of `r * 10 ^ places`. -/
def scaled (r : Rat) (places : UInt64) : Int := (r.num * powerOfTen places).tdiv r.den

/-- The characters of `s / 10 ^ places`, with exactly `places` digits after the point. -/
def scaledChars (s : Int) (places : UInt64) : List Char :=
  let whole := Numeral.text (Numeral.ofNat (s.natAbs / powerOfTen places))
  let signed := if s < 0 then '-' :: whole else whole
  if places = 0 then signed
  else
    signed ++ '.' ::
      Numeral.text (Numeral.padded places.toNat (s.natAbs % powerOfTen places))

/-! ### The engine -/

/-- The result of an operation on two literals, as a decimal of the given number of places. -/
def applyExact (op : Operator) (a b : Literal) (places : UInt64) : Except CalcError Value :=
  match charsToRat? (flatChars a), charsToRat? (flatChars b) with
  | some x, some y =>
    match Backend.applyRat op x y with
    | .ok r =>
      let cut := scaledChars (scaled r places) places
      .ok (.exact (String.ofList (Decimal.normalizeChars cut)))
    | .error e => .error e
  | _, _ => .error .invalidOperand

/-- The result of `a op b` by an exact engine with the given operators enabled, where `precision`
places are asked for at least and an operand may be missing. -/
def operateExact (precision : UInt64) (ops : List Operator) (a b : Option String)
    (symbol : String) : Except CalcError Value :=
  match (Operator.ofSymbol? symbol).filter (· ∈ ops) with
  | none => .error .invalidOperator
  | some op =>
    match a.bind Literal.parse?, b.bind Literal.parse? with
    | some x, some y =>
      if op = .divide && y.isZero then .error .divisionByZero
      else
        applyExact op x y (placesFor op x y (min precision (UInt64.ofNat maxPrecision)))
    | _, _ => .error .invalidOperand

end PostfixCalculator.FixedWidth
