import PostfixCalculator.Proofs.Session.Answers

/-!
# What every session keeps

The stack of a session holds numbers alone, whatever calls have been made: a line that is not
carried out leaves the stack as it was or empties it, and a line that is carried out leaves numbers.
Each answer says which of these has happened.

## Main definitions

* `Response.Describes before after` — what an answer says of the session before a line and after it.

## Main results

* `submit_describes` — every answer is true of the line that it answers.
* `AllNumeric.step` — a call leaves numbers alone stacked.
* `perform_invariant` — **the invariant of all reachable sessions.**
-/

namespace PostfixCalculator

/-- What an answer says of the session before a line and of the session after it. -/
def Response.Describes (before after : Session) : Response → Prop
  | .quit | .invalidEntry | .missingOperands => after = before
  | .divisionByZero => after = before.clear
  | .number text | .result text =>
    after.engine = before.engine ∧ after.stack.getLast? = some text

namespace Session

variable {session : Session}

/-- **Every answer is true of the line that it answers.** -/
theorem submit_describes (session : Session) (line : String) :
    (session.submit line).1.Describes session (session.submit line).2 := by
  have hanswers := submitWords_answers session (Text.words line)
  unfold submit
  generalize session.submitWords (Text.words line) = outcome at hanswers ⊢
  cases hanswers with
  | quit => rfl
  | invalidEntry => rfl
  | number => exact ⟨rfl, List.getLast?_concat⟩
  | divisionByZero => rfl
  | missingOperands => rfl
  | result => exact ⟨rfl, List.getLast?_reverse⟩

/-- A line leaves numbers alone stacked, where there were numbers alone. -/
theorem allNumeric_submit (h : AllNumeric session.stack) (line : String) :
    AllNumeric (session.submit line).2.stack := by
  have hanswers := submitWords_answers session (Text.words line)
  unfold submit
  generalize session.submitWords (Text.words line) = outcome at hanswers ⊢
  cases hanswers with
  | quit => exact h
  | invalidEntry => exact h
  | number _ hword _ =>
    exact allNumeric_append.mpr ⟨h, allNumeric_cons.mpr ⟨hword, AllNumeric.nil⟩⟩
  | divisionByZero => exact AllNumeric.nil
  | missingOperands => exact h
  | result _ _ haccepts =>
    -- an accepted candidate leaves numbers, wherever it came from
    exact allNumeric_reverse.mpr haccepts.allNumeric

/-- A call leaves numbers alone stacked, where there were numbers alone. -/
theorem allNumeric_step (h : AllNumeric session.stack) (command : Command) :
    AllNumeric (session.step command).stack := by
  cases command with
  | line text => exact allNumeric_submit h text
  | clear => exact AllNumeric.nil

theorem allNumeric_perform (h : AllNumeric session.stack) (commands : List Command) :
    AllNumeric (session.perform commands).stack := by
  induction commands generalizing session with
  | nil => exact h
  | cons command commands ih => exact ih (allNumeric_step h command)

/-- **The invariant of all reachable sessions.**  The engine is that of the configuration.  The
stack holds numbers alone, so it is acceptable itself, and each line leaves the session as it was,
empties the stack or puts the number of its answer on top, as the answer says.  A candidate that
comes to be reduced fails for a division by zero only, and its reduction is never empty. -/
theorem perform_invariant (config : Config) (commands : List Command) :
    let session := (ofConfig config).perform commands
    session.engine = Engine.ofConfig config ∧ AllNumeric session.stack ∧
      isAcceptable config.operators session.stack = true ∧
      ∀ line, (session.submit line).1.Describes session (session.submit line).2 ∧
        (asksToQuit (Text.words line) = false →
          isAcceptable config.operators (session.stack ++ Text.words line) = true →
          (∀ e, reduce session.engine (session.stack ++ Text.words line) = .error e →
            e = .divisionByZero) ∧
          reduce session.engine (session.stack ++ Text.words line) ≠ .ok []) := by
  intro session
  have hnumeric : AllNumeric session.stack := allNumeric_perform AllNumeric.nil commands
  refine ⟨engine_perform _ commands, hnumeric, isAcceptable_of_allNumeric hnumeric, fun line =>
    ⟨submit_describes session line, fun hstay hentry =>
      ⟨fun e => eq_divisionByZero_of_reduce, ?_⟩⟩⟩
  have hne : session.stack ++ Text.words line ≠ [] :=
    List.append_ne_nil_of_right_ne_nil _ (ne_nil_of_asksToQuit hstay)
  exact reduce_ne_ok_nil hne hentry

/-- A quotient, a line that lacks operands, and then a candidate that divides by zero. -/
theorem perform_invariant_quotient :
    AllNumeric ["0.33"] ∧ isAcceptable [.divide] ["0.33"] = true ∧
      (∀ e, reduce (Engine.ofConfig { precision := 2, operators := [.divide] })
        ["0.33", "0", "/"] = .error e → e = .divisionByZero) ∧
      reduce (Engine.ofConfig { precision := 2, operators := [.divide] }) ["0.33", "0", "/"] ≠
        .ok [] := by
  have h := perform_invariant { precision := 2, operators := [.divide] }
    [.line "1 3 /", .line "/ /"]
  have hperform : (ofConfig { precision := 2, operators := [.divide] }).perform
      [.line "1 3 /", .line "/ /"] =
        ⟨Engine.ofConfig { precision := 2, operators := [.divide] }, ["0.33"]⟩ := by
    decide +kernel
  dsimp only at h
  rw [hperform] at h
  obtain ⟨-, hnumeric, hentry, hline⟩ := h
  exact ⟨hnumeric, hentry, (hline "0 /").2 (by decide +kernel) (by decide +kernel)⟩

end Session

end PostfixCalculator
