import PostfixCalculator.Literal.Value
import PostfixCalculator.Operator

/-!
# How many places a result keeps

A sum, a difference or a product of numbers with places keeps at least the places that the exact
result needs, whatever the least number asked for.  A quotient keeps the least number asked for.

## Main definitions

* `placesFor` — the number of places of a result.
-/

namespace PostfixCalculator

/-- The number of places that `a op b` keeps when at least `least` are asked for. -/
def placesFor (op : Operator) (a b : Literal) (least : Nat) : Nat :=
  if a.hasFraction || b.hasFraction then
    match op with
    | .plus => max (max least a.fractionLength) b.fractionLength + 1
    | .minus => max (max least a.fractionLength) b.fractionLength
    | .times => max least (a.fractionLength + b.fractionLength)
    | .divide => least
  else least

end PostfixCalculator
