import PostfixCalculator.Proofs.Entry
import PostfixCalculator.Proofs.Reduction.Simulation

/-!
# Counting operands

Each number adds an operand to those stacked and each operator takes one away, so how many are
stacked in front of a word is known without computing anything.  It is the balance of the words
before: the numbers among them less the operators.  A run of the machine on acceptable words can
therefore end early at two places only, a starved operator or a division by zero, and it ends at
whichever comes first.

## Main definitions

* `balance words` — the numbers among the words less the operators.
* `StarvedAt words i` — fewer than two operands are there for the operator at `i`.
* `ZeroDivisionAt ops places words i` — the divisor of the division at `i` evaluates to zero.
* `LacksOperands`, `DividesByZero` — the one or the other comes first.

## Main results

* `depthAfter?_eq_balance` — what is stacked after some words is their balance.
* `Machine.run_cases` — a run reads all words or ends at one that it cannot carry out.
* `Machine.run_decided` — **how a run ends is decided by counting and by divisors of zero.**
-/

namespace PostfixCalculator

/-- Whether a word is the symbol of an operator. -/
def isOperator (word : String) : Bool := (Operator.ofSymbol? word).isSome

/-- The numbers among the words less the operators among them. -/
def balance (words : List String) : ℤ := words.countP isNumeric - words.countP isOperator

/-- The operator at the place `i` is starved: fewer than two operands are there before it. -/
def StarvedAt (words : List String) (i : Nat) : Prop :=
  (∃ op : Operator, words[i]? = some op.symbol) ∧ balance (words.take i) < 2

/-- The words before the place `i` evaluate to two operands or more, and the one that the division
at `i` divides by is zero. -/
def ZeroDivisionAt (ops : List Operator) (places : Nat) (words : List String) (i : Nat) : Prop :=
  words[i]? = some "/" ∧
    ∃ x below, Machine.run ops places [] (words.take i) = some (0 :: x :: below, [])

/-- An operator is starved, and no division before the first one that is divides by zero. -/
def LacksOperands (ops : List Operator) (places : Nat) (words : List String) : Prop :=
  ∃ i, StarvedAt words i ∧ (∀ j < i, ¬StarvedAt words j) ∧
    ∀ j < i, ¬ZeroDivisionAt ops places words j

/-- A division divides by zero, and no operator up to it is starved. -/
def DividesByZero (ops : List Operator) (places : Nat) (words : List String) : Prop :=
  ∃ i, ZeroDivisionAt ops places words i ∧ ∀ j ≤ i, ¬StarvedAt words j

/-- A list is what it has before one of its places, what it has there, and what it has behind. -/
theorem take_append_cons_drop {words : List String} {i : Nat} {word : String}
    (h : words[i]? = some word) : words.take i ++ word :: words.drop (i + 1) = words := by
  obtain ⟨hlt, rfl⟩ := List.getElem?_eq_some_iff.mp h
  rw [List.getElem_cons_drop, List.take_append_drop]

/-! ### The balance -/

@[simp] theorem balance_nil : balance [] = 0 := rfl

theorem balance_append (words words' : List String) :
    balance (words ++ words') = balance words + balance words' := by
  simp only [balance, List.countP_append]
  omega

theorem balance_cons (word : String) (words : List String) :
    balance (word :: words) = balance [word] + balance words :=
  balance_append [word] words

theorem isOperator_symbol (op : Operator) : isOperator op.symbol = true := by
  rw [isOperator, Operator.ofSymbol?_eq_some_iff.mpr rfl]
  rfl

/-- A number adds an operand. -/
theorem balance_number {word : String} (h : isNumeric word = true) : balance [word] = 1 := by
  have hoperator : isOperator word = false := by
    rcases hsymbol : Operator.ofSymbol? word with _ | op
    · rw [isOperator, hsymbol]
      rfl
    · rw [Operator.ofSymbol?_eq_some_iff.mp hsymbol, not_numeric_symbol op] at h
      cases h
  simp [balance, h, hoperator]

/-- An operator takes one away. -/
theorem balance_symbol (op : Operator) : balance [op.symbol] = -1 := by
  simp [balance, not_numeric_symbol, isOperator_symbol]

/-! ### The depth -/

namespace Machine

theorem depthAfter?_append (words' : List String) : ∀ (words : List String) (depth : Nat),
    depthAfter? depth (words ++ words') =
      (depthAfter? depth words).bind (depthAfter? · words') := by
  intro words
  induction words with
  | nil => intro depth; rfl
  | cons word words ih =>
    intro depth
    rw [List.cons_append, depthAfter?, depthAfter?]
    cases Token.ofWord word with
    | number n => exact ih (depth + 1)
    | operator op =>
      dsimp only
      split
      · rfl
      · exact ih (depth - 1)
    | other word => rfl

theorem two_le_of_depthAfter? {depth depth' : Nat} {op : Operator} {words : List String}
    (h : depthAfter? depth (op.symbol :: words) = some depth') : 2 ≤ depth := by
  rw [depthAfter?, ofWord_symbol] at h
  dsimp only at h
  split at h
  · cases h
  · next hdepth => exact not_lt.mp hdepth

/-- **What is stacked after some words is their balance**, above what was stacked before. -/
theorem depthAfter?_eq_balance {depth' : Nat} : ∀ (words : List String) (depth : Nat),
    depthAfter? depth words = some depth' → (depth' : ℤ) = depth + balance words := by
  intro words
  induction words with
  | nil =>
    intro depth h
    cases h
    rw [balance_nil, add_zero]
  | cons word words ih =>
    intro depth h
    rw [depthAfter?] at h
    rw [balance_cons]
    rcases htoken : Token.ofWord word with n | op | other
    · rw [htoken] at h
      have hwords := ih (depth + 1) h
      rw [balance_number (isNumeric_iff.mpr ⟨n, parse?_of_ofWord htoken⟩)]
      omega
    · rw [htoken] at h
      dsimp only at h
      split at h
      · cases h
      · have hwords := ih (depth - 1) h
        rw [symbol_of_ofWord htoken, balance_symbol]
        omega
    · rw [htoken] at h
      cases h

/-- Words that can be counted to the end starve no operator. -/
theorem not_starvedAt_of_depthAfter? {words : List String} {depth : Nat}
    (h : depthAfter? 0 words = some depth) (i : Nat) : ¬StarvedAt words i := by
  rintro ⟨⟨op, hop⟩, hfew⟩
  rw [← take_append_cons_drop hop, depthAfter?_append] at h
  obtain ⟨depth', hdepth', hrest⟩ := Option.bind_eq_some_iff.mp h
  have hbalance := depthAfter?_eq_balance _ _ hdepth'
  have htwo := two_le_of_depthAfter? hrest
  omega

/-! ### Runs -/

variable {ops : List Operator} {places : Nat}

/-- The run of two lists in a row is the run of the second on the stack that the first has left, if
the first was read to its end. -/
theorem run_append (words' : List String) : ∀ (words : List String) (stack : List ℚ),
    run ops places stack (words ++ words') =
      match run ops places stack words with
      | some (stack', []) => run ops places stack' words'
      | some (stack', word :: unread) => some (stack', word :: (unread ++ words'))
      | none => none := by
  intro words
  induction words with
  | nil => intro stack; rfl
  | cons word words ih =>
    intro stack
    rw [List.cons_append, run_cons, run_cons]
    rcases readWord ops places stack word with _ | (_ | stack')
    · rfl
    · rfl
    · exact ih stack'

/-- **A run reads all words or ends at one that it cannot carry out**: it stops in front of the word
or divides by zero. -/
theorem run_cases : ∀ (words : List String) (stack : List ℚ),
    (∃ stack', run ops places stack words = some (stack', [])) ∨
      ∃ done word rest stack', words = done ++ word :: rest ∧
        run ops places stack done = some (stack', []) ∧
        (readWord ops places stack' word = some none ∧
            run ops places stack words = some (stack', word :: rest) ∨
          readWord ops places stack' word = none ∧ run ops places stack words = none) := by
  intro words
  induction words with
  | nil => intro stack; exact .inl ⟨stack, rfl⟩
  | cons word words ih =>
    intro stack
    rcases hread : readWord ops places stack word with _ | (_ | next)
    · exact .inr ⟨[], word, words, stack, rfl, rfl, .inr ⟨hread, by rw [run_cons, hread]⟩⟩
    · exact .inr ⟨[], word, words, stack, rfl, rfl, .inl ⟨hread, by rw [run_cons, hread]⟩⟩
    · -- the word is read, and the run ends where that of the others does
      have hcons : ∀ words, run ops places stack (word :: words) = run ops places next words := by
        intro words
        rw [run_cons, hread]
      rcases ih next with ⟨stack', hrun⟩ | ⟨done, word', rest, stack', hwords, hdone, hend⟩
      · exact .inl ⟨stack', (hcons words).trans hrun⟩
      · refine .inr ⟨word :: done, word', rest, stack', ?_, (hcons done).trans hdone, ?_⟩
        · rw [hwords, List.cons_append]
        · rwa [hcons words]

/-- A word that the machine reads counts as it should. -/
theorem depthAfter?_of_readWord {stack stack' : List ℚ} {word : String}
    (h : readWord ops places stack word = some (some stack')) :
    depthAfter? stack.length [word] = some stack'.length := by
  unfold readWord at h
  rw [depthAfter?]
  rcases htoken : Token.ofWord word with n | op | other
  · rw [htoken] at h
    cases h
    rfl
  · rw [htoken] at h
    rcases stack with _ | ⟨y, _ | ⟨x, below⟩⟩
    · cases h
    · cases h
    · dsimp only [readToken] at h
      split at h
      · obtain ⟨z, -, hz⟩ := Option.map_eq_some_iff.mp h
        cases hz
        rfl
      · cases h
  · rw [htoken] at h
    cases h

/-- A run that reads all words leaves as much as they count. -/
theorem depthAfter?_of_run {stack' : List ℚ} : ∀ (words : List String) (stack : List ℚ),
    run ops places stack words = some (stack', []) →
      depthAfter? stack.length words = some stack'.length := by
  intro words
  induction words with
  | nil =>
    intro stack h
    cases h
    rfl
  | cons word words ih =>
    intro stack h
    rw [run_cons] at h
    rcases hread : readWord ops places stack word with _ | (_ | next)
    · rw [hread] at h
      cases h
    · rw [hread] at h
      cases h
    · rw [hread] at h
      have hword := depthAfter?_of_readWord hread
      show depthAfter? stack.length ([word] ++ words) = _
      rw [depthAfter?_append, hword]
      exact ih next h

theorem length_eq_balance_of_run {words : List String} {stack : List ℚ}
    (h : run ops places [] words = some (stack, [])) : (stack.length : ℤ) = balance words := by
  have hdepth := depthAfter?_eq_balance words 0 (depthAfter?_of_run words [] h)
  rwa [Nat.cast_zero, zero_add] at hdepth

/-! ### The two ways to end early -/

/-- The machine stops in front of an enabled operator only where it lacks an operand. -/
theorem exists_symbol_of_readWord {stack : List ℚ} {word : String}
    (hword : isNumberOrEnabled ops word = true)
    (h : readWord ops places stack word = some none) :
    (∃ op : Operator, word = op.symbol) ∧ stack.length < 2 := by
  unfold isNumberOrEnabled at hword
  unfold readWord at h
  rcases htoken : Token.ofWord word with n | op | other
  · rw [htoken] at h
    cases h
  · refine ⟨⟨op, symbol_of_ofWord htoken⟩, ?_⟩
    rw [htoken] at h hword
    rcases stack with _ | ⟨y, _ | ⟨x, below⟩⟩
    · exact Nat.two_pos
    · exact Nat.one_lt_two
    · rw [readToken_enabled (of_decide_eq_true hword)] at h
      cases hz : compute? places op x y <;> rw [hz] at h <;> cases h
  · rw [htoken] at hword
    cases hword

/-- The machine divides by zero where a division finds a zero on top. -/
theorem eq_divide_of_readWord {stack : List ℚ} {word : String}
    (h : readWord ops places stack word = none) :
    word = "/" ∧ ∃ x below, stack = 0 :: x :: below := by
  unfold readWord at h
  rcases htoken : Token.ofWord word with n | op | other
  · rw [htoken] at h
    cases h
  · rw [htoken] at h
    rcases stack with _ | ⟨y, _ | ⟨x, below⟩⟩
    · cases h
    · cases h
    · dsimp only [readToken] at h
      split at h
      · have hnone : compute? places op x y = none := Option.map_eq_none_iff.mp h
        unfold compute? at hnone
        split at hnone
        · cases hnone
        · cases hnone
        · cases hnone
        · split at hnone
          · next hzero => exact ⟨symbol_of_ofWord htoken, x, below, by rw [hzero]⟩
          · cases hnone
      · cases h
  · rw [htoken] at h
    cases h

theorem readWord_divide_zero (hops : .divide ∈ ops) (x : ℚ) (below : List ℚ) :
    readWord ops places (0 :: x :: below) "/" = none := by
  have htoken : Token.ofWord "/" = .operator .divide := ofWord_symbol .divide
  rw [readWord, htoken, readToken_enabled hops, compute?, if_pos rfl]
  rfl

/-- Words that are read to their end do not divide by zero. -/
theorem not_zeroDivisionAt_of_run {words : List String} {stack : List ℚ}
    (hwords : ∀ word ∈ words, isNumberOrEnabled ops word = true)
    (h : run ops places [] words = some (stack, [])) (i : Nat) :
    ¬ZeroDivisionAt ops places words i := by
  rintro ⟨hword, x, below, hrun⟩
  have hops : Operator.divide ∈ ops :=
    of_decide_eq_true (hwords "/" (List.mem_of_getElem? hword))
  rw [← take_append_cons_drop hword, run_append, hrun] at h
  dsimp only at h
  rw [run_cons, readWord_divide_zero hops] at h
  cases h

theorem starvedAt_append_iff {words words' : List String} {i : Nat} (h : i < words.length) :
    StarvedAt (words ++ words') i ↔ StarvedAt words i := by
  rw [StarvedAt, StarvedAt, List.getElem?_append_left h, List.take_append_of_le_length h.le]

theorem zeroDivisionAt_append_iff {words words' : List String} {i : Nat} (h : i < words.length) :
    ZeroDivisionAt ops places (words ++ words') i ↔ ZeroDivisionAt ops places words i := by
  rw [ZeroDivisionAt, ZeroDivisionAt, List.getElem?_append_left h,
    List.take_append_of_le_length h.le]

/-- A run ends early for one of the two reasons only. -/
theorem not_lacksOperands_of_dividesByZero {words : List String}
    (h : DividesByZero ops places words) : ¬LacksOperands ops places words := by
  rintro ⟨i, hstarved, -, hdivisions⟩
  obtain ⟨k, hzero, hnone⟩ := h
  rcases Nat.lt_or_ge k i with hlt | hge
  · exact hdivisions k hlt hzero
  · exact hnone i hge hstarved

/-- **How a run ends is decided by counting and by divisors of zero.**  Words that are numbers or
enabled operators are read to their end, and leave their balance, unless an operator is starved or a
division divides by zero; the run ends at the first place where one of these is so. -/
theorem run_decided (places : Nat) {words : List String}
    (hwords : ∀ word ∈ words, isNumberOrEnabled ops word = true) :
    match run ops places [] words with
    | some (stack, []) => (stack.length : ℤ) = balance words ∧
        ¬LacksOperands ops places words ∧ ¬DividesByZero ops places words
    | some (_, _ :: _) => LacksOperands ops places words
    | none => DividesByZero ops places words := by
  have hneither : ∀ {done : List String} {stack : List ℚ}, (∀ word ∈ done, word ∈ words) →
      run ops places [] done = some (stack, []) → ∀ i,
        ¬StarvedAt done i ∧ ¬ZeroDivisionAt ops places done i := by
    intro done stack hdone hrun i
    exact ⟨not_starvedAt_of_depthAfter? (depthAfter?_of_run done [] hrun) i,
      not_zeroDivisionAt_of_run (fun word hword => hwords word (hdone word hword)) hrun i⟩
  rcases run_cases words [] with ⟨stack, hrun⟩ | ⟨done, word, rest, stack, rfl, hdone, hend⟩
  · have hnone := hneither (fun _ h => h) hrun
    rw [hrun]
    refine ⟨length_eq_balance_of_run hrun, ?_, ?_⟩
    · rintro ⟨i, hstarved, -⟩
      exact (hnone i).1 hstarved
    · rintro ⟨i, hzero, -⟩
      exact (hnone i).2 hzero
  · -- up to the word, neither has happened
    have hbefore := hneither (fun _ h => List.mem_append_left _ h) hdone
    have hword : (done ++ word :: rest)[done.length]? = some word := by
      rw [List.getElem?_append_right (Nat.le_refl _), Nat.sub_self, List.getElem?_cons_zero]
    have htake : (done ++ word :: rest).take done.length = done := List.take_left
    have hlength := length_eq_balance_of_run hdone
    rcases hend with ⟨hread, hrun⟩ | ⟨hread, hrun⟩
    · obtain ⟨⟨op, rfl⟩, hfew⟩ := exists_symbol_of_readWord (hwords word (by simp)) hread
      rw [hrun]
      refine ⟨done.length, ⟨⟨op, hword⟩, ?_⟩, fun j hj => ?_, fun j hj => ?_⟩
      · rw [htake]
        omega
      · rw [starvedAt_append_iff hj]
        exact (hbefore j).1
      · rw [zeroDivisionAt_append_iff hj]
        exact (hbefore j).2
    · obtain ⟨rfl, x, below, rfl⟩ := eq_divide_of_readWord hread
      rw [hrun]
      refine ⟨done.length, ⟨hword, x, below, ?_⟩, fun j hj => ?_⟩
      · rw [htake]
        exact hdone
      · rcases Nat.lt_or_eq_of_le hj with hlt | rfl
        · rw [starvedAt_append_iff hlt]
          exact (hbefore j).1
        · -- the division itself finds its two operands
          rintro ⟨-, hfew⟩
          rw [htake, ← hlength, List.length_cons, List.length_cons] at hfew
          omega

end Machine

end PostfixCalculator
