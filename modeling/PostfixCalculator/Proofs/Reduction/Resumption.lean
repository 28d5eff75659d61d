import PostfixCalculator.Proofs.Reduction.Numbers

/-!
# Reductions are resumed

What a reduction shows is a list of words again: the numbers stacked, as texts, and the words not
read.  When it is reduced in its turn, the texts rebuild the stack they were taken from, and the
reduction halts in front of the same word.  So it may stand for the words it came from, whatever
follows, and whether these had been carried out to the end or not.

## Main results

* `reduceFrom_words_append` — what a reduction shows stands for the words that it has read.
* `reduceFrom_words` — a reduction of what a reduction shows halts where that has halted.
* `reduce_resumes` — **a reduction can be resumed anywhere.**
-/

namespace PostfixCalculator

variable {engine : Engine} {words : List String} {halt : Halt}

/-- **What a reduction shows stands for the words that it has read**, whatever follows them. -/
theorem reduceFrom_words_append (h : reduceFrom engine [] words = .ok halt)
    (words' : List String) :
    reduceFrom engine [] (halt.words ++ words') = reduceFrom engine [] (words ++ words') := by
  -- both sides go on with the words not read, on the stack that the others have left
  obtain ⟨done, hwords, hdone, -⟩ := exists_of_reduceFrom_eq_ok words [] h
  have hnumeric : AllNumeric halt.stack := AllNumeric.nil.reduceFrom words [] h
  calc reduceFrom engine [] (halt.words ++ words')
      = reduceFrom engine [] (halt.stack.reverse ++ (halt.unread ++ words')) := by
        rw [Halt.words, List.append_assoc]
    _ = reduceFrom engine halt.stack (halt.unread ++ words') :=
        reduceFrom_reverse_append engine hnumeric _
    _ = reduceFrom engine [] (done ++ (halt.unread ++ words')) := by
        rw [reduceFrom_append engine _ done, hdone]
    _ = reduceFrom engine [] (words ++ words') := by
        rw [hwords, List.append_assoc]

/-- A reduction of what a reduction shows halts where that has halted, with the same stack and in
front of the same word. -/
theorem reduceFrom_words (h : reduceFrom engine [] words = .ok halt) :
    reduceFrom engine [] halt.words = .ok halt := by
  have hagain := reduceFrom_words_append h []
  rw [List.append_nil, List.append_nil] at hagain
  rw [hagain, h]

/-- A division by zero is not undone by further words. -/
theorem reduce_append_of_error {e : CalcError} (h : reduce engine words = .error e)
    (words' : List String) : reduce engine (words ++ words') = .error e := by
  unfold reduce at h ⊢
  rw [reduceFrom_append]
  rcases hreduce : reduceFrom engine [] words with e' | halt
  · rw [hreduce] at h
    exact h
  · rw [hreduce] at h
    cases h

/-- **A reduction can be resumed anywhere.**  A division by zero stays one, whatever follows.  Any
other reduction shows words that may take the place of those it has been given, in front of any
others; alone, they are reduced to themselves. -/
theorem reduce_resumes (engine : Engine) (words words' : List String) :
    (∀ e, reduce engine words = .error e →
      e = .divisionByZero ∧ reduce engine (words ++ words') = .error .divisionByZero) ∧
    ∀ reduced, reduce engine words = .ok reduced →
      reduce engine (words ++ words') = reduce engine (reduced ++ words') ∧
        reduce engine reduced = .ok reduced := by
  constructor
  · intro e h
    obtain rfl := eq_divisionByZero_of_reduce h
    exact ⟨rfl, reduce_append_of_error h words'⟩
  · intro reduced h
    obtain ⟨halt, hreduce, rfl⟩ := reduce_eq_ok_iff.mp h
    constructor
    · rw [reduce, reduce, reduceFrom_words_append hreduce]
    · exact reduce_eq_ok_iff.mpr ⟨halt, reduceFrom_words hreduce, rfl⟩

/-- A division by zero; and a product out of the range of numbers, which halts the reduction behind
a sum, each with a division to follow. -/
theorem reduce_resumes_overflow :
    let engine := Engine.ofConfig { backend := .binary }
    let words := ["0.1", "0.2", "+", "1e300", "1e300", "*"]
    reduce engine ["1", "0", "/"] = .error .divisionByZero ∧
      reduce engine (["1", "0", "/"] ++ ["2", "/"]) = .error .divisionByZero ∧
      reduce engine words = .ok ["0.3", "1e300", "1e300", "*"] ∧
      reduce engine (words ++ ["2", "/"]) =
        reduce engine (["0.3", "1e300", "1e300", "*"] ++ ["2", "/"]) ∧
      reduce engine ["0.3", "1e300", "1e300", "*"] = .ok ["0.3", "1e300", "1e300", "*"] := by
  intro engine words
  have hzero : reduce engine ["1", "0", "/"] = .error .divisionByZero := by decide +kernel
  have hhalt : reduce engine words = .ok ["0.3", "1e300", "1e300", "*"] := by decide +kernel
  obtain ⟨-, hfails⟩ := (reduce_resumes engine ["1", "0", "/"] ["2", "/"]).1 _ hzero
  obtain ⟨hresumed, hagain⟩ := (reduce_resumes engine words ["2", "/"]).2 _ hhalt
  exact ⟨hzero, hfails, hhalt, hresumed, hagain⟩

end PostfixCalculator
