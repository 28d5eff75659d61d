import PostfixCalculator.Binary64.Arithmetic
import PostfixCalculator.Config
import PostfixCalculator.Engine.Value

/-!
# The two backends

Both compute `a op b` for two literals and keep a given number of places, dropping the further
ones towards zero.  The exact backend computes on the rational numbers that the flat forms of the
operands denote.  The binary backend computes on the floating-point numbers nearest to them and
cuts the shortest decimal of the result.

## Main definitions

* `Backend.apply` — the result of an operation on two literals.
-/

namespace PostfixCalculator.Backend

/-- The exact result of an operation on two numbers. -/
def applyRat (op : Operator) (x y : Rat) : Except CalcError Rat :=
  match op with
  | .plus => .ok (x + y)
  | .minus => .ok (x - y)
  | .times => .ok (x * y)
  | .divide => if y = 0 then .error .divisionByZero else .ok (x / y)

/-- The result of an operation on rational numbers, as a decimal of the given number of places. -/
def applyExact (op : Operator) (a b : Literal) (places : Nat) : Except CalcError Value :=
  match Decimal.toRat? a.flat, Decimal.toRat? b.flat with
  | some x, some y =>
    match applyRat op x y with
    | .ok r => .ok (.exact (Decimal.normalize (Decimal.ofRat r places)))
    | .error e => .error e
  | _, _ => .error .invalidOperand

/-- The result of an operation on floating-point numbers, where it is finite. -/
def applyBinary64 (op : Operator) (x y : Binary64) : Except CalcError Binary64 :=
  if op = .divide && y.isZero then .error .divisionByZero
  else
    let result :=
      match op with
      | .plus => x.add y
      | .minus => x.sub y
      | .times => x.mul y
      | .divide => x.div y
    match result with
    | some r => if r.isFinite then .ok r else .error .overflow
    | none => .error .overflow

/-- A floating-point number whose shortest decimal has been cut to the given number of places. -/
def truncate? (x : Binary64) (places : Nat) : Option Binary64 :=
  (Decimal.truncate? x.text places).bind Binary64.parse?

/-- The result of an operation on floating-point numbers, cut to the given number of places. -/
def applyApproximate (op : Operator) (a b : Literal) (places : Nat) : Except CalcError Value :=
  match applyBinary64 op (Binary64.ofLiteral a) (Binary64.ofLiteral b) with
  | .ok r =>
    match truncate? r places with
    | some cut => .ok (.approximate cut)
    | none => .error .overflow
  | .error e => .error e

/-- The result of `a op b` by the given backend, with the given number of places. -/
def apply (backend : Backend) (op : Operator) (a b : Literal) (places : Nat) :
    Except CalcError Value :=
  match backend with
  | exact => applyExact op a b places
  | binary => applyApproximate op a b places

end PostfixCalculator.Backend
