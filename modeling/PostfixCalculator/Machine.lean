import PostfixCalculator.Decimal.Spelling
import PostfixCalculator.Literal.Value
import PostfixCalculator.Token

/-!
# The stack machine on numbers

What a list of words computes, said on rational numbers alone: no text is written or read between
two operations, and nothing is cut but the places of a quotient.

## Main definitions

* `Machine.compute?` — the result of one operation.
* `Machine.run` — reads words on a stack of numbers, the topmost number first.
* `Machine.depthAfter?` — the number of operands stacked after some words, where every operator
  found two.
-/

namespace PostfixCalculator.Machine

/-- The result of an operation, the places of a quotient being cut; `none` for a division by
zero. -/
def compute? (places : Nat) (op : Operator) (x y : Rat) : Option Rat :=
  match op with
  | .plus => some (x + y)
  | .minus => some (x - y)
  | .times => some (x * y)
  | .divide => if y = 0 then none else some (Decimal.cut (x / y) places)

/-- Reads words on a stack until none are left or one is neither a number nor an enabled operator
with two operands.  The result is the stack and the words left, or `none` after a division by
zero. -/
def run (ops : List Operator) (places : Nat) (stack : List Rat) :
    List String → Option (List Rat × List String)
  | [] => some (stack, [])
  | word :: words =>
    match Token.ofWord word, stack with
    | .number n, stack => run ops places (n.value :: stack) words
    | .operator op, y :: x :: below =>
      if op ∈ ops then
        match compute? places op x y with
        | some z => run ops places (z :: below) words
        | none => none
      else some (stack, word :: words)
    | _, _ => some (stack, word :: words)

/-- The number of operands stacked after the given words, from `depth` of them before; `none` when
a word is no number and does not find two operands as an operator. -/
def depthAfter? (depth : Nat) : List String → Option Nat
  | [] => some depth
  | word :: words =>
    match Token.ofWord word with
    | .number _ => depthAfter? (depth + 1) words
    | .operator _ => if depth < 2 then none else depthAfter? (depth - 1) words
    | .other _ => none

end PostfixCalculator.Machine
