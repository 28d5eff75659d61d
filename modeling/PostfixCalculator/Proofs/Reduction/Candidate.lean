import PostfixCalculator.Proofs.Entry
import PostfixCalculator.Proofs.Reduction.Numbers

/-!
# Candidates

A candidate is a list of words that may become the stack.  It is accepted when it passes the test of
an entry and its reduction reads every word.  Only the first two words of a candidate have to be
numbers by their position, and a word in their place that is no number could not be carried out
anyway; so it makes no difference whether a candidate is taken in one piece or in two.

## Main definitions

* `Accepts engine candidate stack` — the candidate is acceptable and reduces to the stack.

## Main results

* `stack_ne_nil_of_isAcceptable` — an acceptable candidate leaves something stacked.
* `accepts_append_iff` — **a candidate is accepted in one piece exactly when it is in two.**
-/

namespace PostfixCalculator

variable {engine : Engine} {candidate stack final words : List String}

/-! ### Acceptable candidates -/

/-- An acceptable candidate begins with a number, so its reduction leaves something stacked. -/
theorem stack_ne_nil_of_isAcceptable {ops : List Operator} {halt : Halt} (hne : candidate ≠ [])
    (hentry : isAcceptable ops candidate = true)
    (hreduce : reduceFrom engine [] candidate = .ok halt) : halt.stack ≠ [] := by
  obtain ⟨word, words, rfl⟩ := List.exists_cons_of_ne_nil hne
  rw [reduceFrom_cons, readWord_of_numeric (isNumeric_of_isAcceptable_cons hentry)] at hreduce
  exact stack_ne_nil_of_reduceFrom words [word] (List.cons_ne_nil word []) hreduce

/-- The reduction of an acceptable candidate that has a word never shows nothing. -/
theorem reduce_ne_ok_nil {ops : List Operator}
    (hne : candidate ≠ []) (hentry : isAcceptable ops candidate = true) :
    reduce engine candidate ≠ .ok [] := by
  intro h
  obtain ⟨halt, hreduce, hwords⟩ := reduce_eq_ok_iff.mp h
  obtain ⟨hstack, -⟩ := List.append_eq_nil_iff.mp hwords
  exact stack_ne_nil_of_isAcceptable hne hentry hreduce (List.reverse_eq_nil_iff.mp hstack)

/-! ### Accepted candidates -/

/-- The candidate is acceptable, and its reduction reads every word and leaves the stack. -/
def Accepts (engine : Engine) (candidate stack : List String) : Prop :=
  isAcceptable engine.operators candidate = true ∧
    reduceFrom engine [] candidate = .ok ⟨stack, []⟩

theorem Accepts.allNumeric (h : Accepts engine candidate stack) : AllNumeric stack :=
  AllNumeric.nil.reduceFrom candidate [] h.2

theorem Accepts.stack_ne_nil (h : Accepts engine candidate stack) (hne : candidate ≠ []) :
    stack ≠ [] :=
  stack_ne_nil_of_isAcceptable hne h.1 h.2

theorem Accepts.unique (h : Accepts engine candidate stack) (h' : Accepts engine candidate final) :
    stack = final := by
  have heq := h.2.symm.trans h'.2
  cases heq
  rfl

/-- Numbers are accepted as they are. -/
theorem accepts_of_allNumeric (engine : Engine) (h : AllNumeric candidate) :
    Accepts engine candidate candidate.reverse := by
  refine ⟨isAcceptable_of_allNumeric h, ?_⟩
  rw [reduceFrom_of_numeric engine candidate [] h, List.append_nil]

/-! ### Candidates in two pieces -/

/-- Words behind an accepted candidate are read on the stack that it leaves. -/
theorem Accepts.reduceFrom_append (h : Accepts engine candidate stack) (words : List String) :
    reduceFrom engine [] (candidate ++ words) = reduceFrom engine stack words := by
  rw [PostfixCalculator.reduceFrom_append, h.2]

/-- A reduction of words that is read to its end was read to the end of the words in front. -/
theorem exists_of_reduceFrom_append (h : reduceFrom engine [] (candidate ++ words) =
    .ok ⟨final, []⟩) :
    ∃ stack, reduceFrom engine [] candidate = .ok ⟨stack, []⟩ ∧
      reduceFrom engine stack words = .ok ⟨final, []⟩ := by
  rw [reduceFrom_append] at h
  rcases hreduce : reduceFrom engine [] candidate with e | ⟨stack, _ | ⟨word, unread⟩⟩
  · rw [hreduce] at h
    cases h
  · rw [hreduce] at h
    exact ⟨stack, rfl, h⟩
  · rw [hreduce] at h
    cases h

/-- A word that is carried out is a number or finds two operands. -/
theorem isNumeric_or_two_le_of_reduceFrom {word : String}
    (h : reduceFrom engine stack (word :: words) = .ok ⟨final, []⟩) :
    isNumeric word = true ∨ 2 ≤ stack.length := by
  by_contra hnone
  rw [not_or, Bool.not_eq_true, not_le] at hnone
  rw [reduceFrom_cons, readWord_of_few hnone.1 hnone.2] at h
  cases h

/-- **A candidate is accepted in one piece exactly when it is in two.**  The position of a word
counts for the test of an entry only as long as fewer than two words stand before it, and there a
word that is no number could not be carried out either. -/
theorem accepts_append_iff (hcandidate : candidate ≠ []) (hwords : words ≠ []) :
    Accepts engine (candidate ++ words) final ↔
      ∃ stack, Accepts engine candidate stack ∧ Accepts engine (stack.reverse ++ words) final := by
  obtain ⟨word, words, rfl⟩ := List.exists_cons_of_ne_nil hwords
  constructor
  · -- the first word of the second piece may now stand second, where only numbers may
    rintro ⟨hentry, hreduce⟩
    obtain ⟨stack, hfirst, hsecond⟩ := exists_of_reduceFrom_append hreduce
    have haccepts : Accepts engine candidate stack := ⟨isAcceptable_of_append hentry, hfirst⟩
    have hnumeric : AllNumeric stack := haccepts.allNumeric
    refine ⟨stack, haccepts, ?_, ?_⟩
    · refine isAcceptable_append_of_allNumeric (allNumeric_reverse.mpr hnumeric) ?_ ?_ ?_
      · rw [List.length_reverse]
        exact isNumeric_or_two_le_of_reduceFrom hsecond
      · rw [ne_eq, List.reverse_eq_nil_iff]
        exact haccepts.stack_ne_nil hcandidate
      · intro w hw
        exact isNumberOrEnabled_of_isAcceptable hentry w (List.mem_append_right _ hw)
    · rw [reduceFrom_reverse_append engine hnumeric]
      exact hsecond
  · rintro ⟨stack, haccepts, hentry, hreduce⟩
    have hread := haccepts.reduceFrom_append (word :: words)
    rw [reduceFrom_reverse_append engine haccepts.allNumeric] at hreduce
    refine ⟨?_, hread.trans hreduce⟩
    rcases Nat.lt_or_ge candidate.length 2 with hlen | hlen
    · -- a candidate of one word is the stack that it leaves
      obtain ⟨w, rfl⟩ : ∃ w, candidate = [w] := by
        have hpos := List.length_pos_iff.mpr hcandidate
        exact List.length_eq_one_iff.mp (by omega)
      have hw : AllNumeric [w] :=
        allNumeric_cons.mpr ⟨isNumeric_of_isAcceptable_cons haccepts.1, AllNumeric.nil⟩
      rwa [← (accepts_of_allNumeric engine hw).unique haccepts, List.reverse_reverse] at hentry
    · refine (isAcceptable_append_iff hlen).mpr ⟨haccepts.1, fun w hw => ?_⟩
      exact isNumberOrEnabled_of_isAcceptable hentry w (List.mem_append_right _ hw)

end PostfixCalculator
