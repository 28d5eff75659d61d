import PostfixCalculator.Literal.Basic
import PostfixCalculator.Operator
import PostfixCalculator.Text.Blank

/-!
# Tokens

A word of a line is a number, an operator or neither.  Numbers come first: `-5` is a number, and
only a lone `-` is the operator.

## Main definitions

* `Token` — the three classes.
* `Token.ofWord` — the class of a word.
* `Token.text` — the word of a token.
* `Operator.listText` — the symbols of several operators in a row.
-/

namespace PostfixCalculator

/-- A word, classified. -/
inductive Token
  /-- The word is a literal. -/
  | number (literal : Literal)
  /-- The word is the symbol of an operator. -/
  | operator (op : Operator)
  /-- The word is neither. -/
  | other (word : String)
  deriving DecidableEq

namespace Token

/-- The class of a word. -/
def ofWord (word : String) : Token :=
  match Literal.parse? word with
  | some n => number n
  | none =>
    match Operator.ofSymbol? word with
    | some op => operator op
    | none => other word

/-- The word of a token. -/
def text : Token → String
  | number n => n.text
  | operator op => op.symbol
  | other word => word

end Token

/-- The symbols of operators in a row, one space between neighbours. -/
def Operator.listText (ops : List Operator) : String :=
  Text.joinWords (ops.map Operator.symbol)

end PostfixCalculator
