import PostfixCalculator.Proofs.Engine.Results
import PostfixCalculator.Proofs.Reduction.Run

/-!
# Reductions keep numbers

Every word that a reduction has read has left numbers on the stack: it was a number itself, or its
result is one.  So a stack of numbers stays one, and what a reduction shows holds numbers alone
exactly when every word has been read.

## Main results

* `AllNumeric.reduceFrom` — a stack of numbers stays one.
* `reduce_eq_ok_numeric_iff` — a reduction shows numbers alone when it has read every word.
* `reduceFrom_of_reduce_numeric` — the numbers that it shows are what it has stacked.
-/

namespace PostfixCalculator

variable {engine : Engine} {stack : List String}

/-- One word leaves a stack of numbers. -/
theorem AllNumeric.readWord {word : String} {stack' : List String} (h : AllNumeric stack)
    (hread : readWord engine stack word = .ok (some stack')) : AllNumeric stack' := by
  rcases exists_cons_of_readWord hread with ⟨hword, rfl⟩ | ⟨result, hresult, rfl⟩
  · exact allNumeric_cons.mpr ⟨hword, h⟩
  · refine allNumeric_cons.mpr ⟨Engine.isNumeric_of_operate hresult, fun w hw => ?_⟩
    exact h w (List.mem_of_mem_drop hw)

/-- **A stack of numbers stays one.** -/
theorem AllNumeric.reduceFrom {halt : Halt} (words stack : List String) (h : AllNumeric stack)
    (hreduce : reduceFrom engine stack words = .ok halt) : AllNumeric halt.stack :=
  reduceFrom_preserves (fun hstack hread => hstack.readWord hread) words stack h hreduce

/-- A reduction that halts in front of a word does not show numbers alone. -/
theorem not_allNumeric_of_unread {words stack' : List String} {word : String}
    {unread : List String} (h : reduceFrom engine stack words = .ok ⟨stack', word :: unread⟩) :
    ¬AllNumeric (stack'.reverse ++ word :: unread) := by
  intro hnumeric
  have hword : isNumeric word = true := hnumeric word (by simp)
  rw [not_numeric_of_unread h] at hword
  cases hword

/-- **A reduction shows numbers alone when it has read every word.** -/
theorem reduce_eq_ok_numeric_iff {words : List String} :
    (reduce engine words = .ok stack.reverse ∧ AllNumeric stack) ↔
      reduceFrom engine [] words = .ok ⟨stack, []⟩ := by
  rw [reduce_eq_ok_iff]
  constructor
  · rintro ⟨⟨⟨stack', unread⟩, hreduce, hwords⟩, hnumeric⟩
    rcases unread with _ | ⟨word, unread⟩
    · have hstack : stack' = stack := by simpa [Halt.words] using hwords
      rw [hreduce, hstack]
    · rw [← allNumeric_reverse, ← hwords] at hnumeric
      exact absurd hnumeric (not_allNumeric_of_unread hreduce)
  · intro hreduce
    exact ⟨⟨⟨stack, []⟩, hreduce, List.append_nil _⟩, AllNumeric.nil.reduceFrom words [] hreduce⟩

/-- A reduction that shows numbers alone has left them stacked, the last one on top. -/
theorem reduceFrom_of_reduce_numeric {words reduced : List String}
    (h : reduce engine words = .ok reduced) (hnumeric : AllNumeric reduced) :
    reduceFrom engine [] words = .ok ⟨reduced.reverse, []⟩ := by
  apply reduce_eq_ok_numeric_iff.mp
  rw [List.reverse_reverse, allNumeric_reverse]
  exact ⟨h, hnumeric⟩

end PostfixCalculator
