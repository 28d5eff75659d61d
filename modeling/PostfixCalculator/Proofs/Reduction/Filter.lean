import PostfixCalculator.Proofs.Engine.Errors
import PostfixCalculator.Proofs.Reduction.Candidate

/-!
# The test of an entry as a filter

The test of an entry looks at positions and classes of words, and a reduction at operands.  They
agree as far as they go: the test refuses nothing that a reduction would read to its end, and in
what it lets through, all that an operator can lack is a second operand.

A word finds no more operands than there are words before it, which is why an operator among the
first two words is never carried out.

## Main definitions

* `ReachesOperator engine words stack word` — a reduction comes to an operator, with the stack
  before it.

## Main results

* `length_stack_le_of_reduceFrom` — a reduction stacks no more than it reads.
* `isAcceptable_of_reduceFrom` — what is read to its end is acceptable.
* `isAcceptable_filters_reduce` — **the test of an entry filters reductions**, for every engine.
-/

namespace PostfixCalculator

variable {engine : Engine} {words stack : List String} {word : String}

/-! ### Operands before a word -/

/-- One word adds one number at most. -/
theorem length_le_of_readWord {stack' : List String}
    (h : readWord engine stack word = .ok (some stack')) : stack'.length ≤ stack.length + 1 := by
  rcases exists_cons_of_readWord h with ⟨-, rfl⟩ | ⟨result, -, rfl⟩
  · exact Nat.le_refl _
  · rw [List.length_cons, List.length_drop]
    omega

/-- **A reduction stacks no more than it reads.** -/
theorem length_stack_le_of_reduceFrom {stack' : List String} : ∀ (words stack : List String),
    reduceFrom engine stack words = .ok ⟨stack', []⟩ →
      stack'.length ≤ stack.length + words.length := by
  intro words
  induction words with
  | nil =>
    intro stack h
    cases h
    exact Nat.le_refl _
  | cons word words ih =>
    intro stack h
    obtain ⟨next, hread, hrest⟩ := reduceFrom_cons_eq_iff.mp h
    have hword := length_le_of_readWord hread
    have hwords := ih next hrest
    rw [List.length_cons]
    omega

/-! ### Classes of words -/

/-- A word may stand after the first two when it is a number or the engine has it enabled. -/
theorem isNumberOrEnabled_iff : isNumberOrEnabled engine.operators word = true ↔
    isNumeric word = true ∨ ∃ op, engine.enabled? word = some op := by
  rcases hparse : Literal.parse? word with _ | n
  · have hword := not_numeric_iff.mpr hparse
    rw [hword, or_iff_right Bool.false_ne_true, isNumberOrEnabled]
    rcases hsymbol : Operator.ofSymbol? word with _ | op
    · rw [ofWord_of_none hparse hsymbol]
      simp [Engine.enabled?, hsymbol]
    · rw [ofWord_of_ofSymbol? hparse hsymbol]
      simp [Engine.enabled?, hsymbol]
  · have hword := isNumeric_iff.mpr ⟨n, hparse⟩
    exact iff_of_true (isNumberOrEnabled_of_numeric hword) (.inl hword)

/-- A word that is carried out is a number, or an enabled operator behind two words or more. -/
theorem class_of_reduceFrom {done rest final : List String}
    (h : reduceFrom engine [] (done ++ word :: rest) = .ok ⟨final, []⟩) :
    isNumberOrEnabled engine.operators word = true ∧ (isNumeric word = true ∨ 2 ≤ done.length) := by
  obtain ⟨stack, hdone, hrest⟩ := exists_of_reduceFrom_append h
  have hlength : stack.length ≤ done.length := by
    have hle := length_stack_le_of_reduceFrom done [] hdone
    rwa [List.length_nil, Nat.zero_add] at hle
  refine ⟨isNumberOrEnabled_iff.mpr ?_, ?_⟩
  · by_contra hnone
    rw [not_or, Bool.not_eq_true, not_exists] at hnone
    have hdisabled : engine.enabled? word = none := Option.eq_none_iff_forall_ne_some.mpr hnone.2
    rw [reduceFrom_cons, readWord_of_not_enabled hnone.1 hdisabled] at hrest
    cases hrest
  · exact (isNumeric_or_two_le_of_reduceFrom hrest).imp_right fun htwo => htwo.trans hlength

/-- **What is read to its end is acceptable.** -/
theorem isAcceptable_of_reduceFrom (h : reduceFrom engine [] words = .ok ⟨stack, []⟩) :
    isAcceptable engine.operators words = true := by
  rw [isAcceptable_iff]
  constructor
  · -- before one of the first two words there is one word at most
    intro word hword
    obtain ⟨done, rest, htake⟩ := List.append_of_mem hword
    have hwords : words = done ++ word :: (rest ++ words.drop 2) := by
      rw [← List.cons_append, ← List.append_assoc, ← htake, List.take_append_drop]
    have hfew : done.length < 2 := by
      have hlength := congrArg List.length htake
      rw [List.length_take, List.length_append, List.length_cons] at hlength
      omega
    rw [hwords] at h
    exact (class_of_reduceFrom h).2.resolve_right (by omega)
  · intro word hword
    obtain ⟨done, rest, hdrop⟩ := List.append_of_mem hword
    have hwords : words = words.take 2 ++ done ++ word :: rest := by
      rw [List.append_assoc, ← hdrop, List.take_append_drop]
    rw [hwords] at h
    exact (class_of_reduceFrom h).1

/-! ### Operators that a reduction comes to -/

/-- The reduction of the words reads all words before some word, which is no number and is handed to
the engine as an operator on the stack that these have left. -/
def ReachesOperator (engine : Engine) (words stack : List String) (word : String) : Prop :=
  ∃ done rest, words = done ++ word :: rest ∧ reduceFrom engine [] done = .ok ⟨stack, []⟩ ∧
    isNumeric word = false

theorem ReachesOperator.allNumeric (h : ReachesOperator engine words stack word) :
    AllNumeric stack := by
  obtain ⟨done, rest, -, hreduce, -⟩ := h
  exact AllNumeric.nil.reduceFrom done [] hreduce

/-- The engine has every operator of an acceptable list enabled. -/
theorem ReachesOperator.enabled (h : ReachesOperator engine words stack word)
    (hentry : isAcceptable engine.operators words = true) :
    ∃ op, engine.enabled? word = some op := by
  obtain ⟨done, rest, rfl, -, hword⟩ := h
  have hclass := isNumberOrEnabled_of_isAcceptable hentry word (by simp)
  rw [isNumberOrEnabled_iff, hword] at hclass
  exact hclass.resolve_left Bool.false_ne_true

/-- On numbers, an enabled operator lacks an operand only where fewer than two are stacked. -/
theorem operateOn_eq_invalidOperand_iff (hnumeric : AllNumeric stack) {op : Operator}
    (henabled : engine.enabled? word = some op) :
    operateOn engine stack word = .error .invalidOperand ↔ stack.length < 2 := by
  rw [operateOn, Engine.operate_eq_invalidOperand_iff, and_iff_right ⟨op, henabled⟩]
  rcases stack with _ | ⟨y, _ | ⟨x, below⟩⟩
  · simp
  · simp
  · obtain ⟨hy, hrest⟩ := allNumeric_cons.mp hnumeric
    obtain ⟨hx, -⟩ := allNumeric_cons.mp hrest
    obtain ⟨n, hn⟩ := isNumeric_iff.mp hx
    obtain ⟨m, hm⟩ := isNumeric_iff.mp hy
    simp [hn, hm]

/-- **The test of an entry filters reductions**, for every engine.  Whatever reduces to numbers
alone passes the test.  In a list that has passed it, every operator that the reduction comes to is
enabled, and it lacks an operand exactly when fewer than two numbers are stacked. -/
theorem isAcceptable_filters_reduce (engine : Engine) (words : List String) :
    (∀ reduced, reduce engine words = .ok reduced → AllNumeric reduced →
      isAcceptable engine.operators words = true) ∧
    (isAcceptable engine.operators words = true →
      ∀ stack word, ReachesOperator engine words stack word →
        operateOn engine stack word ≠ .error .invalidOperator ∧
        (operateOn engine stack word = .error .invalidOperand ↔ stack.length < 2)) := by
  constructor
  · intro reduced hreduce hnumeric
    have hreversed : reduce engine words = .ok reduced.reverse.reverse ∧
        AllNumeric reduced.reverse :=
      ⟨by rw [hreduce, List.reverse_reverse], allNumeric_reverse.mpr hnumeric⟩
    exact isAcceptable_of_reduceFrom (reduce_eq_ok_numeric_iff.mp hreversed)
  · intro hentry stack word hreaches
    obtain ⟨op, henabled⟩ := hreaches.enabled hentry
    refine ⟨fun hinvalid => ?_, operateOn_eq_invalidOperand_iff hreaches.allNumeric henabled⟩
    rw [operateOn, Engine.operate_eq_invalidOperator_iff, henabled] at hinvalid
    cases hinvalid

/-- A binary sum, and a second sum that finds one operand only. -/
theorem isAcceptable_filters_reduce_sum :
    let engine := Engine.ofConfig { backend := .binary, operators := [.plus] }
    isAcceptable [.plus] ["0.1", "0.2", "+"] = true ∧
      ReachesOperator engine ["0.1", "0.2", "+", "+"] ["0.3"] "+" ∧
      operateOn engine ["0.3"] "+" ≠ .error .invalidOperator ∧
      (operateOn engine ["0.3"] "+" = .error .invalidOperand ↔ ["0.3"].length < 2) := by
  intro engine
  have hsum : reduce engine ["0.1", "0.2", "+"] = .ok ["0.3"] := by decide +kernel
  have hreaches : ReachesOperator engine ["0.1", "0.2", "+", "+"] ["0.3"] "+" :=
    ⟨["0.1", "0.2", "+"], [], by decide, by decide +kernel, by decide⟩
  exact ⟨(isAcceptable_filters_reduce engine _).1 ["0.3"] hsum (all_isNumeric_iff.mp (by decide)),
    hreaches, (isAcceptable_filters_reduce engine _).2 (by decide) ["0.3"] "+" hreaches⟩

end PostfixCalculator
