import PostfixCalculator.Engine.Basic

/-!
# Reduction of a list of words

Words are read from left to right on a stack.  A number is pushed as it is written.  Any other
word is handed to the engine as an operator on the two topmost numbers: a result replaces them, a
division by zero ends the reduction with nothing to show, and any other failure ends it where it
stands, with nothing lost.

Stacks are lists with the topmost number first.

## Main definitions

* `Halt` — where a reduction halted: its stack and the words not read.
* `reduceFrom` — the reduction of words on a given stack.
* `reduce` — the reduction of words, written as a list of words again.
-/

namespace PostfixCalculator

/-- Where a reduction halted. -/
structure Halt where
  /-- The stack, the topmost number first. -/
  stack : List String
  /-- The words that were not read, the one that could not be carried out first. -/
  unread : List String
  deriving DecidableEq, Repr

/-- A halted reduction, as a list of words: the stack from the bottom up, then what was not
read. -/
def Halt.words (halt : Halt) : List String := halt.stack.reverse ++ halt.unread

/-- The result of the word `word` as an operator on the two topmost numbers of a stack.  The upper
one is the second operand, also when it is the only one. -/
def operateOn (engine : Engine) (stack : List String) (word : String) : Except CalcError Value :=
  engine.operate stack.tail.head? stack.head? word

/-- Reads words on a stack until none are left or one cannot be carried out. -/
def reduceFrom (engine : Engine) (stack : List String) : List String → Except CalcError Halt
  | [] => .ok ⟨stack, []⟩
  | word :: words =>
    if isNumeric word then reduceFrom engine (word :: stack) words
    else
      match operateOn engine stack word with
      | .ok result => reduceFrom engine (result.text :: stack.drop 2) words
      | .error e => if e.isFatal then .error e else .ok ⟨stack, word :: words⟩

/-- The reduction of a list of words, from an empty stack. -/
def reduce (engine : Engine) (words : List String) : Except CalcError (List String) :=
  (reduceFrom engine [] words).map Halt.words

end PostfixCalculator
