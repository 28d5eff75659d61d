import PostfixCalculator.Engine.Backend
import PostfixCalculator.Engine.Precision

/-!
# The engine

An engine carries out single operations on operands that are given as texts.  It looks at the
operator first, then at the operands, then at the divisor, and only then computes.

## Main definitions

* `Engine` — what is needed to carry out operations.
* `Engine.ofConfig` — the engine of a configuration; its number of places is kept within bounds.
* `Engine.operate` — the result of one operation.
-/

namespace PostfixCalculator

/-- What is needed to carry out operations. -/
structure Engine where
  /-- The way of computing. -/
  backend : Backend
  /-- The least number of places that results keep. -/
  precision : Nat
  /-- The operators that are enabled. -/
  operators : List Operator
  precision_le : precision ≤ maxPrecision
  deriving DecidableEq

namespace Engine

/-- The engine of a configuration. -/
def ofConfig (config : Config) : Engine where
  backend := config.backend
  precision := min config.precision maxPrecision
  operators := config.operators
  precision_le := Nat.min_le_right _ _

/-- The operator with the given symbol, if it is enabled. -/
def enabled? (engine : Engine) (symbol : String) : Option Operator :=
  (Operator.ofSymbol? symbol).filter (· ∈ engine.operators)

/-- The result of `a op b`, where an operand may be missing. -/
def operate (engine : Engine) (a b : Option String) (symbol : String) : Except CalcError Value :=
  match engine.enabled? symbol with
  | none => .error .invalidOperator
  | some op =>
    match a.bind Literal.parse?, b.bind Literal.parse? with
    | some x, some y =>
      if op = .divide && y.isZero then .error .divisionByZero
      else engine.backend.apply op x y (placesFor op x y engine.precision)
    | _, _ => .error .invalidOperand

end Engine

instance : Inhabited Engine := ⟨Engine.ofConfig {}⟩

end PostfixCalculator
