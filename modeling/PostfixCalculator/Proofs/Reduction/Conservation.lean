import PostfixCalculator.Proofs.Reduction.Numbers
import PostfixCalculator.Proofs.Reduction.Trace

/-!
# Reductions conserve words

Every number stacked stands for an expression: itself, as it is written, or an operator on the two
expressions that its operands stood for.  Written in a row from the bottom of the stack up, these
expressions are the words read, each word once and in its place.  So a reduction neither loses a
word nor takes one twice, wherever it halts.

## Main definitions

* `Expression` — a number, or an operator on two expressions, with its words.
* `Expression.Evaluates engine e text` — the text that an expression comes to.
* `written es` — the words of stacked expressions, from the bottom up.

## Main results

* `exists_expressions_of_readWord` — a word joins the expressions stacked, and none is lost.
* `exists_expressions_of_reduceFrom` — the expressions stacked are the words read.
* `reduce_conserves_words` — **a reduction neither loses nor duplicates a word.**
-/

namespace PostfixCalculator

/-! ### Expressions -/

/-- An expression. -/
inductive Expression
  /-- A number, as it is written. -/
  | number (word : String)
  /-- An operator on two expressions. -/
  | operation (left right : Expression) (symbol : String)
  deriving DecidableEq, Repr

namespace Expression

/-- The words of an expression, an operator behind its operands. -/
def words : Expression → List String
  | number word => [word]
  | operation left right symbol => left.words ++ right.words ++ [symbol]

/-- The number that an expression is, where no operator takes it. -/
def number? : Expression → Option String
  | number word => some word
  | operation _ _ _ => none

/-- The text that an expression comes to: a number to itself, and an operator to the result of its
operation on the texts that its operands come to. -/
inductive Evaluates (engine : Engine) : Expression → String → Prop
  /-- A number comes to itself. -/
  | number {word : String} (hword : isNumeric word = true) : Evaluates engine (.number word) word
  /-- An operator comes to its result. -/
  | operation {left right : Expression} {symbol x y : String} {result : Value}
      (hleft : Evaluates engine left x) (hright : Evaluates engine right y)
      (hsymbol : isNumeric symbol = false)
      (hresult : engine.operate (some x) (some y) symbol = .ok result) :
      Evaluates engine (.operation left right symbol) result.text

/-- The numbers that no operator takes are among the texts that expressions come to, as they are
written and in their order. -/
theorem filterMap_number?_sublist {engine : Engine} {es : List Expression} {texts : List String}
    (h : List.Forall₂ (Evaluates engine) es texts) : (es.filterMap number?).Sublist texts := by
  induction h with
  | nil => exact .slnil
  | cons hhead _ ih =>
    cases hhead with
    | number hword => exact ih.cons_cons _
    | operation hleft hright hsymbol hresult => exact ih.cons _

end Expression

open Expression (Evaluates)

/-- The words of stacked expressions, from the bottom up; the first of the list is the topmost. -/
def written (es : List Expression) : List String := es.reverse.flatMap Expression.words

@[simp] theorem written_nil : written [] = [] := rfl

@[simp] theorem written_cons (e : Expression) (es : List Expression) :
    written (e :: es) = written es ++ e.words := by
  simp [written]

/-! ### What is read is stacked -/

variable {engine : Engine} {stack stack' : List String} {word : String} {es : List Expression}

/-- A word joins the expressions stacked: a number on top of them, and an operator behind the two
topmost. -/
theorem exists_expressions_of_readWord (hes : List.Forall₂ (Evaluates engine) es stack)
    (h : readWord engine stack word = .ok (some stack')) :
    ∃ es', List.Forall₂ (Evaluates engine) es' stack' ∧ written es' = written es ++ [word] := by
  cases hword : isNumeric word with
  | true =>
    rw [readWord_of_numeric hword] at h
    cases h
    refine ⟨.number word :: es, .cons (.number hword) hes, ?_⟩
    simp [Expression.words]
  | false =>
    -- the operands are the two topmost texts, so their expressions are the first two of the list
    obtain ⟨x, y, below, result, rfl, hresult, rfl⟩ := exists_operands_of_readWord hword h
    obtain ⟨right, es₁, hright, hes₁, rfl⟩ := List.forall₂_cons_right_iff.mp hes
    obtain ⟨left, rest, hleft, hbelow, rfl⟩ := List.forall₂_cons_right_iff.mp hes₁
    refine ⟨.operation left right word :: rest,
      .cons (.operation hleft hright hword hresult) hbelow, ?_⟩
    simp [Expression.words]

/-- **The expressions stacked are the words read**, behind those that were stacked before. -/
theorem exists_expressions_of_reduceFrom : ∀ (words stack : List String) (es : List Expression),
    List.Forall₂ (Evaluates engine) es stack → reduceFrom engine stack words = .ok ⟨stack', []⟩ →
      ∃ es', List.Forall₂ (Evaluates engine) es' stack' ∧ written es' = written es ++ words := by
  intro words
  induction words with
  | nil =>
    intro stack es hes h
    cases h
    exact ⟨es, hes, (List.append_nil _).symm⟩
  | cons word words ih =>
    intro stack es hes h
    obtain ⟨next, hread, hrest⟩ := reduceFrom_cons_eq_iff.mp h
    obtain ⟨es₁, hes₁, hwritten₁⟩ := exists_expressions_of_readWord hes hread
    obtain ⟨es', hes', hwritten'⟩ := ih next es₁ hes₁ hrest
    refine ⟨es', hes', ?_⟩
    rw [hwritten', hwritten₁, List.append_assoc, List.singleton_append]

/-- The operands of a word, on a stack that is written from the bottom up. -/
theorem operateOn_reverse (engine : Engine) (numbers : List String) (word : String) :
    operateOn engine numbers.reverse word =
      engine.operate numbers.dropLast.getLast? numbers.getLast? word := by
  rw [operateOn, List.tail_reverse, List.head?_reverse, List.head?_reverse]

/-- **A reduction neither loses nor duplicates a word.**  It fails for a division by zero only.
Otherwise it has read the words up to some place, and shows the numbers that these alone reduce to
and then the words from there on.  The numbers are what expressions come to whose words, in a row,
are the words read; so those that no operator has taken are shown as they are written and in their
order.  It halts at the end, or at a word that fails as an operator on the two topmost numbers.  For
every operator carried out it shows two words less. -/
theorem reduce_conserves_words (engine : Engine) (words : List String) :
    (∀ e, reduce engine words = .error e → e = .divisionByZero) ∧
    ∀ shown, reduce engine words = .ok shown →
      ∃ i ≤ words.length, ∃ numbers, shown = numbers ++ words.drop i ∧ AllNumeric numbers ∧
        reduce engine (words.take i) = .ok numbers ∧
        (∃ es : List Expression, es.flatMap Expression.words = words.take i ∧
          List.Forall₂ (Evaluates engine) es numbers ∧
          (es.filterMap Expression.number?).Sublist numbers) ∧
        (i = words.length ∨ ∃ word e, words[i]? = some word ∧ isNumeric word = false ∧
          engine.operate numbers.dropLast.getLast? numbers.getLast? word = .error e ∧
          e.isFatal = false) ∧
        shown.length + 2 * (pushedResults engine [] words).length = words.length := by
  refine ⟨fun e => eq_divisionByZero_of_reduce, fun shown hshown => ?_⟩
  -- the place where the reduction halts is the number of words that it has read
  obtain ⟨⟨stack, unread⟩, hreduce, rfl⟩ := reduce_eq_ok_iff.mp hshown
  obtain ⟨done, rfl, hdone, hhalt⟩ := exists_of_reduceFrom_eq_ok words [] hreduce
  obtain ⟨es, hes, hwritten⟩ := exists_expressions_of_reduceFrom done [] [] .nil hdone
  obtain ⟨hnumbers, hnumeric⟩ := reduce_eq_ok_numeric_iff.mpr hdone
  have hforall : List.Forall₂ (Evaluates engine) es.reverse stack.reverse :=
    List.forall₂_reverse_iff.mpr hes
  dsimp only at hhalt ⊢
  refine ⟨done.length, by simp, stack.reverse, ?_, allNumeric_reverse.mpr hnumeric, ?_,
    ⟨es.reverse, ?_, hforall, Expression.filterMap_number?_sublist hforall⟩, ?_, ?_⟩
  · rw [List.drop_left, Halt.words]
  · rw [List.take_left, hnumbers]
  · rw [List.take_left]
    exact hwritten
  · cases unread with
    | nil => exact .inl (by simp)
    | cons word unread =>
      have hread : readWord engine stack word = .ok none := hhalt word rfl
      obtain ⟨e, herror, hfatal⟩ := exists_error_of_readWord hread
      refine .inr ⟨word, e, by simp, not_numeric_of_readWord hread, ?_, hfatal⟩
      rw [← operateOn_reverse, List.reverse_reverse, herror]
  · have hlength := length_add_pushedResults _ [] hreduce
    rw [Halt.words, List.length_append, List.length_reverse, hlength, List.length_nil,
      Nat.zero_add]

/-- Twice a third of two places, above a number that stays as it is written, in front of a word that
is no operator. -/
theorem reduce_conserves_words_third :
    let engine := Engine.ofConfig { precision := 2 }
    let words := ["9.0", "1", "3", "/", "2", "*", "%", "5"]
    let shown := ["9.0", "0.66", "%", "5"]
    reduce engine words = .ok shown ∧
      shown.length + 2 * (pushedResults engine [] words).length = words.length ∧
      ∃ i numbers, shown = numbers ++ words.drop i ∧ reduce engine (words.take i) = .ok numbers ∧
        ∃ es : List Expression, es.flatMap Expression.words = words.take i ∧
          List.Forall₂ (Evaluates engine) es numbers := by
  intro engine words shown
  have hshown : reduce engine words = .ok shown := by decide +kernel
  obtain ⟨i, -, numbers, hnumbers, -, hread, ⟨es, hwords, hes, -⟩, -, hlength⟩ :=
    (reduce_conserves_words engine words).2 shown hshown
  exact ⟨hshown, hlength, i, numbers, hnumbers, hread, es, hwords, hes⟩

end PostfixCalculator
