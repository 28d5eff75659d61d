import PostfixCalculator.Proofs.Engine.Operate
import PostfixCalculator.Proofs.Token
import PostfixCalculator.Reduction

/-!
# Runs of a reduction

A reduction reads one word after another.  What one word does depends on the stack alone and not on
the words behind it, so a reduction of two lists in a row is the reduction of the second on the
stack that the first has left, or ends where the first ended.

## Main definitions

* `readWord engine stack word` — the stack after one word, or none where the word cannot be carried
  out.

## Main results

* `exists_operands_of_readWord` — a word that is carried out and is no number has found two
  operands.
* `reduceFrom_cons` — a reduction goes on with the stack after its first word, or halts there.
* `reduceFrom_cons_eq_iff` — words are read to their end one after the other.
* `reduceFrom_append` — the reduction of two lists in a row.
* `reduceFrom_of_numeric` — numbers are pushed as they are.
* `reduceFrom_reverse_append` — a stack may stand in front of the words read on it.
* `exists_of_reduceFrom_eq_ok` — where a reduction halts, and why.
* `reduceFrom_preserves` — what every word keeps of the stack, a reduction keeps.
* `eq_divisionByZero_of_reduceFrom` — the only error that a reduction ends with.
-/

namespace PostfixCalculator

/-- The stack after one word, or none where the word cannot be carried out. -/
def readWord (engine : Engine) (stack : List String) (word : String) :
    Except CalcError (Option (List String)) :=
  if isNumeric word then .ok (some (word :: stack))
  else
    match operateOn engine stack word with
    | .ok result => .ok (some (result.text :: stack.drop 2))
    | .error e => if e.isFatal then .error e else .ok none

variable {engine : Engine} {stack : List String} {word : String} {words : List String}

/-! ### One word -/

theorem readWord_of_numeric (h : isNumeric word = true) :
    readWord engine stack word = .ok (some (word :: stack)) := by
  rw [readWord, if_pos h]

/-- A word that halts a reduction is no number. -/
theorem not_numeric_of_readWord (h : readWord engine stack word = .ok none) :
    isNumeric word = false := by
  rw [← Bool.not_eq_true]
  intro hnumeric
  rw [readWord_of_numeric hnumeric] at h
  cases h

/-- A word that halts a reduction fails as an operator, and not fatally. -/
theorem exists_error_of_readWord (h : readWord engine stack word = .ok none) :
    ∃ e, operateOn engine stack word = .error e ∧ e.isFatal = false := by
  rw [readWord, if_neg (Bool.eq_false_iff.mp (not_numeric_of_readWord h))] at h
  cases hon : operateOn engine stack word with
  | ok result =>
    rw [hon] at h
    cases h
  | error e =>
    refine ⟨e, rfl, ?_⟩
    rw [← Bool.not_eq_true]
    intro hfatal
    simp [hon, hfatal] at h

/-- A word that is neither a number nor an enabled operator cannot be carried out. -/
theorem readWord_of_not_enabled (hword : isNumeric word = false)
    (henabled : engine.enabled? word = none) : readWord engine stack word = .ok none := by
  rw [readWord, if_neg (Bool.eq_false_iff.mp hword), operateOn,
    Engine.operate_of_not_enabled henabled]
  rfl

/-- A word that is no number needs two operands. -/
theorem readWord_of_few (hword : isNumeric word = false) (hfew : stack.length < 2) :
    readWord engine stack word = .ok none := by
  have hleft : stack.tail.head? = none := by
    rcases stack with _ | ⟨y, _ | ⟨x, below⟩⟩
    · rfl
    · rfl
    · rw [List.length_cons, List.length_cons] at hfew
      omega
  rcases henabled : engine.enabled? word with _ | op
  · exact readWord_of_not_enabled hword henabled
  · rw [readWord, if_neg (Bool.eq_false_iff.mp hword), operateOn, hleft,
      Engine.operate_none_left henabled]
    rfl

/-- The stack after a word has a topmost number: the word itself, or the result of an
operation. -/
theorem exists_cons_of_readWord {stack' : List String}
    (h : readWord engine stack word = .ok (some stack')) :
    (isNumeric word = true ∧ stack' = word :: stack) ∨
      ∃ result, operateOn engine stack word = .ok result ∧
        stack' = result.text :: stack.drop 2 := by
  unfold readWord at h
  split at h
  · next hnumeric =>
    cases h
    exact .inl ⟨hnumeric, rfl⟩
  · split at h
    · next result hresult =>
      cases h
      exact .inr ⟨result, hresult, rfl⟩
    · split at h <;> cases h

/-- An operation that has a result puts it in the place of its two operands. -/
theorem readWord_of_operate {x y : String} {below : List String} {result : Value}
    (hword : isNumeric word = false)
    (hresult : engine.operate (some x) (some y) word = .ok result) :
    readWord engine (y :: x :: below) word = .ok (some (result.text :: below)) := by
  have hon : operateOn engine (y :: x :: below) word = .ok result := hresult
  rw [readWord, if_neg (Bool.eq_false_iff.mp hword), hon]
  rfl

/-- A word that is carried out and is no number has found two operands. -/
theorem exists_operands_of_readWord {stack' : List String} (hword : isNumeric word = false)
    (h : readWord engine stack word = .ok (some stack')) :
    ∃ x y below result, stack = y :: x :: below ∧
      engine.operate (some x) (some y) word = .ok result ∧ stack' = result.text :: below := by
  rcases exists_cons_of_readWord h with ⟨hnumeric, -⟩ | ⟨result, hresult, rfl⟩
  · rw [hword] at hnumeric
    cases hnumeric
  · rcases stack with _ | ⟨y, _ | ⟨x, below⟩⟩
    · rw [readWord_of_few hword (by simp)] at h
      cases h
    · rw [readWord_of_few hword (by simp)] at h
      cases h
    · exact ⟨x, y, below, result, rfl, hresult, rfl⟩

theorem eq_divisionByZero_of_isFatal {e : CalcError} (h : e.isFatal = true) :
    e = .divisionByZero := by
  cases e <;> first | rfl | cases h

theorem eq_divisionByZero_of_readWord {e : CalcError}
    (h : readWord engine stack word = .error e) : e = .divisionByZero := by
  unfold readWord at h
  split at h
  · cases h
  · split at h
    · cases h
    · split at h
      · next hfatal =>
        cases h
        exact eq_divisionByZero_of_isFatal hfatal
      · cases h

/-! ### Several words -/

@[simp] theorem reduceFrom_nil : reduceFrom engine stack [] = .ok ⟨stack, []⟩ := rfl

/-- A reduction goes on with the stack after its first word, or halts in front of that word. -/
theorem reduceFrom_cons :
    reduceFrom engine stack (word :: words) =
      match readWord engine stack word with
      | .ok (some stack') => reduceFrom engine stack' words
      | .ok none => .ok ⟨stack, word :: words⟩
      | .error e => .error e := by
  rw [reduceFrom, readWord]
  split
  · rfl
  · cases operateOn engine stack word with
    | ok result => rfl
    | error e =>
      -- whether the cause is fatal is known only cause by cause
      cases e <;> rfl

/-- Words are read to their end when the first one is carried out and the others are read to their
end on the stack that it leaves. -/
theorem reduceFrom_cons_eq_iff {stack' : List String} :
    reduceFrom engine stack (word :: words) = .ok ⟨stack', []⟩ ↔
      ∃ next, readWord engine stack word = .ok (some next) ∧
        reduceFrom engine next words = .ok ⟨stack', []⟩ := by
  rw [reduceFrom_cons]
  rcases readWord engine stack word with e | (_ | next) <;> simp

/-- **The reduction of two lists in a row** is the reduction of the second on the stack that the
first has left, if the first was read to its end. -/
theorem reduceFrom_append (engine : Engine) (words' : List String) :
    ∀ (words stack : List String), reduceFrom engine stack (words ++ words') =
      match reduceFrom engine stack words with
      | .ok ⟨stack', []⟩ => reduceFrom engine stack' words'
      | .ok ⟨stack', word :: unread⟩ => .ok ⟨stack', word :: (unread ++ words')⟩
      | .error e => .error e := by
  intro words
  induction words with
  | nil => intro stack; rfl
  | cons word words ih =>
    intro stack
    rw [List.cons_append, reduceFrom_cons, reduceFrom_cons]
    rcases readWord engine stack word with e | (_ | stack')
    · rfl
    · rfl
    · exact ih stack'

/-- Numbers are pushed as they are. -/
theorem reduceFrom_of_numeric (engine : Engine) : ∀ (words stack : List String),
    AllNumeric words → reduceFrom engine stack words = .ok ⟨words.reverse ++ stack, []⟩ := by
  intro words
  induction words with
  | nil => intro stack _; rfl
  | cons word words ih =>
    intro stack h
    obtain ⟨hword, hwords⟩ := allNumeric_cons.mp h
    rw [reduceFrom_cons, readWord_of_numeric hword]
    dsimp only
    rw [ih (word :: stack) hwords, List.reverse_cons, List.append_assoc]
    rfl

/-- A stack of numbers can be written in front of the words that are read on it. -/
theorem reduceFrom_reverse_append (engine : Engine) {stack : List String}
    (h : AllNumeric stack) (words : List String) :
    reduceFrom engine [] (stack.reverse ++ words) = reduceFrom engine stack words := by
  have hpush := reduceFrom_of_numeric engine stack.reverse [] (allNumeric_reverse.mpr h)
  rw [List.reverse_reverse, List.append_nil] at hpush
  rw [reduceFrom_append, hpush]

/-- The only error that a reduction ends with is a division by zero. -/
theorem eq_divisionByZero_of_reduceFrom {e : CalcError} : ∀ (words stack : List String),
    reduceFrom engine stack words = .error e → e = .divisionByZero := by
  intro words
  induction words with
  | nil => intro stack h; cases h
  | cons word words ih =>
    intro stack h
    rw [reduceFrom_cons] at h
    rcases hread : readWord engine stack word with e' | (_ | stack')
    · rw [hread] at h
      cases h
      exact eq_divisionByZero_of_readWord hread
    · rw [hread] at h
      cases h
    · rw [hread] at h
      exact ih stack' h

/-- **Where a reduction halts**: the words before have been read to their end, and the next one, if
there is one, cannot be carried out on the stack that they left. -/
theorem exists_of_reduceFrom_eq_ok {halt : Halt} : ∀ (words stack : List String),
    reduceFrom engine stack words = .ok halt →
      ∃ done, words = done ++ halt.unread ∧
        reduceFrom engine stack done = .ok ⟨halt.stack, []⟩ ∧
        ∀ word ∈ halt.unread.head?, readWord engine halt.stack word = .ok none := by
  intro words
  induction words with
  | nil =>
    intro stack h
    cases h
    exact ⟨[], rfl, rfl, by simp⟩
  | cons word words ih =>
    intro stack h
    rw [reduceFrom_cons] at h
    rcases hread : readWord engine stack word with e | (_ | stack')
    · rw [hread] at h
      cases h
    · rw [hread] at h
      cases h
      exact ⟨[], rfl, rfl, by simp [hread]⟩
    · -- the word is read, and the reduction halts where that of the others does
      rw [hread] at h
      obtain ⟨done, hdone, hreduce, hhead⟩ := ih stack' h
      refine ⟨word :: done, by rw [hdone, List.cons_append], ?_, hhead⟩
      rw [reduceFrom_cons, hread]
      exact hreduce

/-- A reduction never halts in front of a number. -/
theorem not_numeric_of_unread {stack' : List String} {unread : List String}
    (h : reduceFrom engine stack words = .ok ⟨stack', word :: unread⟩) :
    isNumeric word = false := by
  obtain ⟨done, -, -, hhead⟩ := exists_of_reduceFrom_eq_ok words stack h
  exact not_numeric_of_readWord (hhead word rfl)

/-- **What every word keeps of the stack, a reduction keeps.** -/
theorem reduceFrom_preserves {P : List String → Prop} {halt : Halt}
    (hstep : ∀ {stack stack' : List String} {word : String}, P stack →
      readWord engine stack word = .ok (some stack') → P stack') :
    ∀ (words stack : List String), P stack → reduceFrom engine stack words = .ok halt →
      P halt.stack := by
  intro words
  induction words with
  | nil =>
    intro stack hstack h
    cases h
    exact hstack
  | cons word words ih =>
    intro stack hstack h
    rw [reduceFrom_cons] at h
    rcases hread : readWord engine stack word with e | (_ | stack')
    · rw [hread] at h
      cases h
    · rw [hread] at h
      cases h
      exact hstack
    · rw [hread] at h
      exact ih stack' (hstep hstack hread) h

/-- A reduction that begins with something stacked ends with something stacked. -/
theorem stack_ne_nil_of_reduceFrom {halt : Halt} (words stack : List String) (hne : stack ≠ [])
    (h : reduceFrom engine stack words = .ok halt) : halt.stack ≠ [] := by
  refine reduceFrom_preserves (P := (· ≠ [])) (fun _ hread => ?_) words stack hne h
  rcases exists_cons_of_readWord hread with ⟨-, rfl⟩ | ⟨result, -, rfl⟩ <;> simp

/-! ### Reductions from an empty stack -/

theorem eq_divisionByZero_of_reduce {e : CalcError} (h : reduce engine words = .error e) :
    e = .divisionByZero := by
  unfold reduce at h
  rcases hreduce : reduceFrom engine [] words with e' | halt
  · rw [hreduce] at h
    cases h
    exact eq_divisionByZero_of_reduceFrom words [] hreduce
  · rw [hreduce] at h
    cases h

theorem reduce_eq_ok_iff {reduced : List String} :
    reduce engine words = .ok reduced ↔
      ∃ halt, reduceFrom engine [] words = .ok halt ∧ halt.words = reduced := by
  unfold reduce
  rcases reduceFrom engine [] words with e | halt <;> simp [Except.map]

end PostfixCalculator
