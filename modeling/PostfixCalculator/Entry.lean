import PostfixCalculator.Token

/-!
# Acceptable entries

A quick look at a candidate stack before it is reduced: its first two words must be numbers, and
each later word a number or an enabled operator.  Whether every operator finds two operands is not
looked at.

## Main definitions

* `isNumberOrEnabled` — a word that may stand anywhere after the first two.
* `isAcceptable` — the test of a whole list of words.
-/

namespace PostfixCalculator

/-- Whether a word is a number or one of the given operators. -/
def isNumberOrEnabled (ops : List Operator) (word : String) : Bool :=
  match Token.ofWord word with
  | .number _ => true
  | .operator op => op ∈ ops
  | .other _ => false

/-- Whether a list of words begins with two numbers, as far as it goes, and holds only numbers and
the given operators. -/
def isAcceptable (ops : List Operator) (words : List String) : Bool :=
  (words.take 2).all isNumeric && (words.drop 2).all (isNumberOrEnabled ops)

end PostfixCalculator
