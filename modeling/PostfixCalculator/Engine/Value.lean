import PostfixCalculator.Binary64.Literal
import PostfixCalculator.Binary64.Shortest
import PostfixCalculator.Decimal.Basic

/-!
# Results and their failures

## Main definitions

* `CalcError` — the causes for which an operation has no result.
* `CalcError.isFatal` — whether the cause makes the whole stack worthless.
* `Value` — a result, exact or approximate.
* `Value.text` — the text of a result, which is a literal again.
-/

namespace PostfixCalculator

/-- The causes for which an operation has no result. -/
inductive CalcError
  /-- The divisor is zero. -/
  | divisionByZero
  /-- An operand is missing or is not a literal. -/
  | invalidOperand
  /-- The operator does not exist or is not enabled. -/
  | invalidOperator
  /-- The approximate result is not a finite number. -/
  | overflow
  deriving DecidableEq, Repr

namespace CalcError

/-- The text that reports a cause. -/
def message : CalcError → String
  | divisionByZero => "division par zéro"
  | invalidOperand => "opérande invalide"
  | invalidOperator => "opérateur invalide"
  | overflow => "résultat hors domaine (dépassement flottant)"

/-- Only a division by zero makes the whole stack worthless. -/
def isFatal : CalcError → Bool
  | divisionByZero => true
  | _ => false

end CalcError

/-- The result of an operation. -/
inductive Value
  /-- A decimal in its plain form. -/
  | exact (text : String)
  /-- A floating-point number, already cut to the places of its operation. -/
  | approximate (number : Binary64)
  deriving DecidableEq

namespace Value

/-- The text of a result. -/
def text : Value → String
  | exact text => text
  | approximate x => Decimal.normalize x.text

/-- The floating-point number nearest to a result. -/
def toBinary64? : Value → Option Binary64
  | exact text => Binary64.parse? text
  | approximate x => some x

end Value

end PostfixCalculator
