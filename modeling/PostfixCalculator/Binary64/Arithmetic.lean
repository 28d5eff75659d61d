import PostfixCalculator.Binary64.Basic

/-!
# Arithmetic on binary floating-point numbers

Each operation is the exact result, rounded once to the nearest number, with the even one of two.
The result is `none` where none is defined: infinity against infinity, zero times infinity, zero
over zero.

## Main definitions

* `Binary64.add`, `Binary64.sub`, `Binary64.mul`, `Binary64.div`.
-/

namespace PostfixCalculator.Binary64

/-- The sum.  An exact sum of zero is negative only when both summands are. -/
def add (x y : Binary64) : Option Binary64 :=
  if x.isFinite && y.isFinite then
    let sum := x.signedUnits + y.signedUnits
    if sum = 0 then some (zero (x.negative && y.negative))
    else some (ofUnits (sum < 0) sum.natAbs 1)
  else if x.isFinite then some y
  else if y.isFinite then some x
  else if x.negative = y.negative then some x
  else none

/-- The difference: the sum with the second operand's sign turned. -/
def sub (x y : Binary64) : Option Binary64 := x.add y.neg

/-- The product. -/
def mul (x y : Binary64) : Option Binary64 :=
  let negative := x.negative != y.negative
  if x.isFinite && y.isFinite then some (ofUnits negative (x.units * y.units) unitsPerOne)
  else if x.isZero || y.isZero then none
  else some (infinity negative)

/-- The quotient. -/
def div (x y : Binary64) : Option Binary64 :=
  let negative := x.negative != y.negative
  if !y.isFinite then if x.isFinite then some (zero negative) else none
  else if !x.isFinite then some (infinity negative)
  else if y.isZero then if x.isZero then none else some (infinity negative)
  else some (ofUnits negative (x.units * unitsPerOne) y.units)

end PostfixCalculator.Binary64
