/-!
# Operators

The four binary operators of the calculator.

## Main definitions

* `Operator` — addition, subtraction, multiplication, division.
* `Operator.symbol`, `Operator.ofSymbol?` — an operator's one-character name, written and read.

## Main results

* `ofSymbol?_eq_some_iff` — exactly the four symbols are read, each as its operator.
-/

namespace PostfixCalculator

/-- A binary operator. -/
inductive Operator
  | plus
  | minus
  | times
  | divide
  deriving DecidableEq, Repr, Inhabited

namespace Operator

/-- Every operator, in the order in which they are listed to the user. -/
def all : List Operator := [plus, minus, times, divide]

/-- The symbol of an operator. -/
def symbol : Operator → String
  | plus => "+"
  | minus => "-"
  | times => "*"
  | divide => "/"

/-- The operator with the given symbol. -/
def ofSymbol? (text : String) : Option Operator := all.find? (·.symbol = text)

/-- A symbol is read as an operator exactly when it is that operator's. -/
theorem ofSymbol?_eq_some_iff {text : String} {op : Operator} :
    ofSymbol? text = some op ↔ text = op.symbol := by
  constructor
  · intro h
    have := List.find?_some h
    simpa using Eq.symm (of_decide_eq_true this)
  · rintro rfl
    cases op <;> decide

/-- Every operator is listed. -/
theorem mem_all (op : Operator) : op ∈ all := by cases op <;> decide

end Operator

end PostfixCalculator
