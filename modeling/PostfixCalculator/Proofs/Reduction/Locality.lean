import PostfixCalculator.Proofs.Reduction.Resumption

/-!
# Reductions are local

A word takes its operands from the top of the stack and leaves what lies below them.  Words that
are read to their end by themselves never reach below their own operands, so they do on top of any
stack what they do alone.  A part of an expression that is complete may therefore be replaced by its
result, whatever stands around it.

## Main results

* `readWord_above` — one word leaves what lies below its operands.
* `reduceFrom_above` — so do several words that are read to their end.
* `reduce_complete_part` — **a complete part of an expression may be replaced by its result.**
-/

namespace PostfixCalculator

variable {engine : Engine} {stack stack' words : List String} {word : String}

/-- One word leaves what lies below its operands. -/
theorem readWord_above (h : readWord engine stack word = .ok (some stack'))
    (below : List String) :
    readWord engine (stack ++ below) word = .ok (some (stack' ++ below)) := by
  cases hword : isNumeric word with
  | true =>
    rw [readWord_of_numeric hword] at h
    cases h
    exact readWord_of_numeric hword
  | false =>
    -- both operands are of the upper stack, or the word would not have been carried out on it
    obtain ⟨x, y, rest, result, rfl, hresult, rfl⟩ := exists_operands_of_readWord hword h
    exact readWord_of_operate hword hresult

/-- **Words that are read to their end leave what lies below their operands**, on top of any
stack. -/
theorem reduceFrom_above (below : List String) : ∀ (words stack : List String),
    reduceFrom engine stack words = .ok ⟨stack', []⟩ →
      reduceFrom engine (stack ++ below) words = .ok ⟨stack' ++ below, []⟩ := by
  intro words
  induction words with
  | nil =>
    intro stack h
    cases h
    rfl
  | cons word words ih =>
    intro stack h
    obtain ⟨next, hread, hrest⟩ := reduceFrom_cons_eq_iff.mp h
    apply reduceFrom_cons_eq_iff.mpr
    exact ⟨next ++ below, readWord_above hread below, ih next hrest⟩

/-- Words that are read to their end by themselves put their numbers on top of any stack.  So do
these numbers, written as words. -/
theorem reduceFrom_complete_append {reduced : List String} (hnumeric : AllNumeric reduced)
    (h : reduceFrom engine [] words = .ok ⟨reduced.reverse, []⟩) (stack rest : List String) :
    reduceFrom engine stack (words ++ rest) = reduceFrom engine stack (reduced ++ rest) := by
  have habove : reduceFrom engine stack words = .ok ⟨reduced.reverse ++ stack, []⟩ :=
    reduceFrom_above stack words [] h
  rw [reduceFrom_append, habove, reduceFrom_append, reduceFrom_of_numeric engine _ _ hnumeric]

/-- **A complete part of an expression may be replaced by its result**, whatever stands around it.
In front of it there may be a division by zero, or any words that reduce to numbers alone; behind
it, any words at all.  Numbers in front of it stay as they are written, and in their order. -/
theorem reduce_complete_part (engine : Engine) {part reduced : List String}
    (hpart : reduce engine part = .ok reduced) (hreduced : AllNumeric reduced)
    (front : List String) :
    ((∀ numbers, reduce engine front = .ok numbers → AllNumeric numbers) →
      ∀ rest, reduce engine (front ++ part ++ rest) = reduce engine (front ++ reduced ++ rest)) ∧
    (AllNumeric front → reduce engine (front ++ part) = .ok (front ++ reduced)) := by
  have hread := reduceFrom_of_reduce_numeric hpart hreduced
  constructor
  · intro hfront rest
    rw [List.append_assoc, List.append_assoc]
    cases hnumbers : reduce engine front with
    | error e =>
      rw [reduce_append_of_error hnumbers, reduce_append_of_error hnumbers]
    | ok numbers =>
      -- the part and its result are read on the stack that the words in front have left
      have hbelow := reduceFrom_of_reduce_numeric hnumbers (hfront numbers hnumbers)
      rw [reduce, reduce, reduceFrom_append, reduceFrom_append, hbelow]
      exact congrArg (·.map Halt.words) (reduceFrom_complete_append hreduced hread _ rest)
  · intro hfront
    have hpush := reduceFrom_of_numeric engine front [] hfront
    have habove := reduceFrom_above (front.reverse ++ []) part [] hread
    rw [List.nil_append] at habove
    rw [reduce, reduceFrom_append, hpush]
    dsimp only
    rw [habove]
    simp [Except.map, Halt.words]

/-- A third is replaced by its digits, behind two thirds and in front of operators; and two numbers
below it stay as they are written. -/
theorem reduce_complete_part_third :
    let engine := Engine.ofConfig { backend := .binary, precision := 3 }
    reduce engine ["1", "3", "/"] = .ok ["0.333"] ∧ AllNumeric ["0.333"] ∧
      reduce engine (["2", "3", "/"] ++ ["1", "3", "/"] ++ ["+", "*"]) =
        reduce engine (["2", "3", "/"] ++ ["0.333"] ++ ["+", "*"]) ∧
      reduce engine (["5.00", "1e2"] ++ ["1", "3", "/"]) = .ok (["5.00", "1e2"] ++ ["0.333"]) := by
  intro engine
  have hpart : reduce engine ["1", "3", "/"] = .ok ["0.333"] := by decide +kernel
  have hreduced : AllNumeric ["0.333"] := all_isNumeric_iff.mp (by decide)
  have hfront : reduce engine ["2", "3", "/"] = .ok ["0.666"] := by decide +kernel
  refine ⟨hpart, hreduced, (reduce_complete_part engine hpart hreduced _).1 ?_ _,
    (reduce_complete_part engine hpart hreduced _).2 ?_⟩
  · intro numbers hnumbers
    rw [hfront] at hnumbers
    cases hnumbers
    exact all_isNumeric_iff.mp (by decide)
  · exact all_isNumeric_iff.mp (by decide)

end PostfixCalculator
