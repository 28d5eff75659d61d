import PostfixCalculator.Proofs.Reduction.Depth
import PostfixCalculator.Proofs.Session.LineBreaks

/-!
# The answer to a line is decided by counting

A session notices a starved operator only by what its reduction leaves unread, and a division by
zero only when it comes to it.  Both are known from the candidate: the first by counting numbers and
operators, the second by the value of the divisor.  So is the length of the stack that a line
leaves.

## Main results

* `submitWords_of_reduceFrom` — the answer to a line, from the reduction of its candidate.
* `submit_balance` — **operand counts and divisors of zero decide the answer**, in every reachable
  exact session.
-/

namespace PostfixCalculator.Session

variable {session : Session} {words : List String}

/-- The answer to a line whose candidate is acceptable, from the reduction of that candidate. -/
theorem submitWords_of_reduceFrom (hnumeric : AllNumeric session.stack)
    (hstay : asksToQuit words = false)
    (hentry : isAcceptable session.engine.operators (session.stack ++ words) = true) :
    match reduceFrom session.engine [] (session.stack ++ words) with
    | .error _ => (session.submitWords words).1 = .divisionByZero
    | .ok ⟨_, _ :: _⟩ => (session.submitWords words).1 = .missingOperands
    | .ok ⟨stack, []⟩ => (∃ text, (session.submitWords words).1.shown? = some text) ∧
        (session.submitWords words).2.stack = stack.reverse := by
  have hanswers := submitWords_answers session words
  generalize session.submitWords words = outcome at hanswers ⊢
  cases hanswers with
  | quit hquit =>
    rw [hquit] at hstay
    cases hstay
  | invalidEntry _ hnone =>
    rw [hnone] at hentry
    cases hentry
  | number hwords hword _ =>
    subst hwords
    rw [(accepts_number hnumeric hword).2]
    exact ⟨⟨_, rfl⟩, by simp⟩
  | divisionByZero _ _ hreduce =>
    rw [hreduce]
  | missingOperands _ _ hreduce =>
    rw [hreduce]
  | result _ _ haccepts =>
    rw [haccepts.2]
    exact ⟨⟨_, rfl⟩, rfl⟩

/-- Operand counts and divisors of zero decide the answer of an exact session whose stack holds
numbers alone. -/
theorem submitWords_balance (hexact : session.engine.backend = .exact)
    (hnumeric : AllNumeric session.stack) (hstay : asksToQuit words = false)
    (hentry : isAcceptable session.engine.operators (session.stack ++ words) = true) :
    let candidate := session.stack ++ words
    ((session.submitWords words).1 = .missingOperands ↔
      LacksOperands session.engine.operators session.engine.precision candidate) ∧
    ((session.submitWords words).1 = .divisionByZero ↔
      DividesByZero session.engine.operators session.engine.precision candidate) ∧
    ((session.submitWords words).1 ≠ .missingOperands ∧
        (session.submitWords words).1 ≠ .divisionByZero →
      (∃ text, (session.submitWords words).1.shown? = some text) ∧
      ((session.submitWords words).2.stack.length : ℤ) = balance candidate ∧
      1 ≤ balance candidate) := by
  intro candidate
  have hne : candidate ≠ [] := List.append_ne_nil_of_right_ne_nil _ (ne_nil_of_asksToQuit hstay)
  have hanswer := submitWords_of_reduceFrom hnumeric hstay hentry
  have hsim := reduceFrom_simulates_run session.engine hexact candidate [] [] .nil
  have hdecided := Machine.run_decided session.engine.precision
    (isNumberOrEnabled_of_isAcceptable hentry)
  rcases hrun : Machine.run session.engine.operators session.engine.precision [] candidate with
    _ | ⟨stack, _ | ⟨word, unread⟩⟩
  · rw [hrun] at hsim hdecided
    rw [hsim] at hanswer
    have hother := Machine.not_lacksOperands_of_dividesByZero hdecided
    rw [hanswer]
    exact ⟨iff_of_false (by decide) hother, iff_of_true rfl hdecided, fun h => absurd rfl h.2⟩
  · rw [hrun] at hsim hdecided
    obtain ⟨texts, hreduce, htexts⟩ := hsim
    rw [hreduce] at hanswer
    obtain ⟨⟨text, htext⟩, hstack⟩ := hanswer
    obtain ⟨hbalance, hlacks, hdivides⟩ := hdecided
    have hcommitted : ((session.submitWords words).2.stack.length : ℤ) = balance candidate := by
      rw [hstack, List.length_reverse, htexts.length_eq, hbalance]
    have hpos : 1 ≤ texts.length :=
      List.length_pos_iff.mpr (stack_ne_nil_of_isAcceptable hne hentry hreduce)
    refine ⟨iff_of_false ?_ hlacks, iff_of_false ?_ hdivides, fun _ => ⟨⟨text, htext⟩,
      hcommitted, ?_⟩⟩
    · intro hmissing
      rw [hmissing] at htext
      cases htext
    · intro hzero
      rw [hzero] at htext
      cases htext
    · rw [← hbalance, ← htexts.length_eq]
      exact_mod_cast hpos
  · rw [hrun] at hsim hdecided
    obtain ⟨texts, hreduce, -⟩ := hsim
    rw [hreduce] at hanswer
    have hother := mt Machine.not_lacksOperands_of_dividesByZero (not_not.mpr hdecided)
    rw [hanswer]
    exact ⟨iff_of_true rfl hdecided, iff_of_false (by decide) hother, fun h => absurd rfl h.1⟩

/-- **Operand counts and divisors of zero decide the answer** to a line, in every reachable exact
session.  Where the candidate is acceptable, operands are missing exactly when an operator is
starved and no division before the first such operator divides by zero; there is a division by zero
exactly when a division that comes before any starved operator divides by zero.  Every other line is
carried out, and leaves as many numbers as the candidate has numbers less operators, which is one at
least. -/
theorem submit_balance (config : Config) (hexact : config.backend = .exact)
    (commands : List Command) (line : String) (hstay : asksToQuit (Text.words line) = false) :
    let session := (ofConfig config).perform commands
    let candidate := session.stack ++ Text.words line
    let places := min config.precision maxPrecision
    let (response, after) := session.submit line
    isAcceptable config.operators candidate = true →
      (response = .missingOperands ↔ LacksOperands config.operators places candidate) ∧
      (response = .divisionByZero ↔ DividesByZero config.operators places candidate) ∧
      (response ≠ .missingOperands ∧ response ≠ .divisionByZero →
        (∃ text, response.shown? = some text) ∧
        (after.stack.length : ℤ) = balance candidate ∧ 1 ≤ balance candidate) := by
  intro session candidate places hentry
  have hengine : session.engine = Engine.ofConfig config := engine_perform _ commands
  have hnumeric : AllNumeric session.stack := allNumeric_perform AllNumeric.nil commands
  have hdecided := submitWords_balance (hengine ▸ hexact) hnumeric hstay (by rwa [hengine])
  rw [hengine] at hdecided
  exact hdecided

/-- At no places a third is zero, so a division by it comes before the sum that is starved; and a
line that leaves the third stacked. -/
theorem submit_balance_third :
    let session := (ofConfig { precision := 0 }).perform [.line "6"]
    asksToQuit (Text.words "1 3 / / +") = false ∧
      isAcceptable Operator.all ["6", "1", "3", "/", "/", "+"] = true ∧
      DividesByZero Operator.all 0 ["6", "1", "3", "/", "/", "+"] ∧
      ¬LacksOperands Operator.all 0 ["6", "1", "3", "/", "/", "+"] ∧
      ((session.submit "1 3 /").2.stack.length : ℤ) = balance ["6", "1", "3", "/"] := by
  have hperform : (ofConfig { precision := 0 }).perform [.line "6"] =
      ⟨Engine.ofConfig { precision := 0 }, ["6"]⟩ := by
    decide +kernel
  have hstay : asksToQuit (Text.words "1 3 / / +") = false := by decide +kernel
  have hentry : isAcceptable Operator.all ["6", "1", "3", "/", "/", "+"] = true := by decide +kernel
  have hzero := submit_balance { precision := 0 } rfl [.line "6"] "1 3 / / +" hstay
  have hthird := submit_balance { precision := 0 } rfl [.line "6"] "1 3 /" (by decide +kernel)
  dsimp only at hzero hthird ⊢
  rw [hperform] at hzero hthird ⊢
  obtain ⟨hlacks, hdivides, -⟩ := hzero (by decide +kernel)
  obtain ⟨-, -, hcommits⟩ := hthird (by decide +kernel)
  exact ⟨hstay, hentry, hdivides.mp (by decide +kernel), mt hlacks.mpr (by decide +kernel),
    (hcommits (by decide +kernel)).2.1⟩

end PostfixCalculator.Session
