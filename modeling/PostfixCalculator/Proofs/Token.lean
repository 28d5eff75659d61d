import Mathlib
import PostfixCalculator.Token

/-!
# The class of a word

A word is a number, an operator or neither; it is never two of these.

## Main definitions

* `AllNumeric words` — every one of the words is a number.

## Main results

* `isNumeric_iff` — a word is a number when it is read as a literal.
* `ofWord_of_parse?`, `ofWord_of_ofSymbol?`, `ofWord_of_none` — the class of each kind of word.
* `ofWord_symbol` — the symbol of an operator is read as that operator.
* `not_numeric_symbol` — an operator is no number.
-/

namespace PostfixCalculator

theorem isNumeric_iff {word : String} : isNumeric word = true ↔ ∃ n, Literal.parse? word = some n :=
  Option.isSome_iff_exists

theorem not_numeric_iff {word : String} : isNumeric word = false ↔ Literal.parse? word = none :=
  Option.isSome_eq_false_iff.trans Option.isNone_iff_eq_none

theorem ofWord_of_parse? {word : String} {n : Literal} (h : Literal.parse? word = some n) :
    Token.ofWord word = .number n := by
  rw [Token.ofWord, h]

theorem ofWord_of_ofSymbol? {word : String} {op : Operator} (h : Literal.parse? word = none)
    (hop : Operator.ofSymbol? word = some op) : Token.ofWord word = .operator op := by
  rw [Token.ofWord, h, hop]

theorem ofWord_of_none {word : String} (h : Literal.parse? word = none)
    (hop : Operator.ofSymbol? word = none) : Token.ofWord word = .other word := by
  rw [Token.ofWord, h, hop]

theorem symbol_of_ofWord {word : String} {op : Operator} (h : Token.ofWord word = .operator op) :
    word = op.symbol := by
  unfold Token.ofWord at h
  split at h
  · cases h
  · split at h
    · next hop =>
      cases h
      exact Operator.ofSymbol?_eq_some_iff.mp hop
    · cases h

theorem parse?_of_ofWord {word : String} {n : Literal} (h : Token.ofWord word = .number n) :
    Literal.parse? word = some n := by
  unfold Token.ofWord at h
  split at h
  · next hparse =>
    cases h
    exact hparse
  · split at h <;> cases h

/-- An operator is no number. -/
theorem parse?_symbol (op : Operator) : Literal.parse? op.symbol = none := by
  cases op <;> decide

theorem ofWord_symbol (op : Operator) : Token.ofWord op.symbol = .operator op :=
  ofWord_of_ofSymbol? (parse?_symbol op) (Operator.ofSymbol?_eq_some_iff.mpr rfl)

theorem not_numeric_symbol (op : Operator) : isNumeric op.symbol = false :=
  not_numeric_iff.mpr (parse?_symbol op)

/-! ### Lists of numbers -/

/-- Every one of the words is a number. -/
def AllNumeric (words : List String) : Prop := ∀ word ∈ words, isNumeric word = true

theorem AllNumeric.nil : AllNumeric [] := by simp [AllNumeric]

theorem allNumeric_cons {word : String} {words : List String} :
    AllNumeric (word :: words) ↔ isNumeric word = true ∧ AllNumeric words :=
  List.forall_mem_cons

theorem allNumeric_append {words words' : List String} :
    AllNumeric (words ++ words') ↔ AllNumeric words ∧ AllNumeric words' :=
  List.forall_mem_append

theorem allNumeric_reverse {words : List String} :
    AllNumeric words.reverse ↔ AllNumeric words := by
  simp [AllNumeric]

theorem all_isNumeric_iff {words : List String} :
    words.all isNumeric = true ↔ AllNumeric words :=
  List.all_eq_true

end PostfixCalculator
