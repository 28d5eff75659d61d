import PostfixCalculator.Proofs.Session.Invariant
import PostfixCalculator.Proofs.Text.Words

/-!
# The current expression

The stack of a session is shown as a line.  It holds numbers alone, so the line has the numbers of
the stack as its words, and a session that reads it stacks them as they are.  The line is therefore
all that has to be kept of a session.

## Main results

* `submitWords_numbers` — a line of numbers is stacked as it is.
* `words_expression?` — the words of the current expression are the stack.
* `submit_expression` — **the current expression restores the session.**
-/

namespace PostfixCalculator.Session

variable {session : Session}

/-- **A line of numbers is stacked as it is**, and answered with its last number. -/
theorem submitWords_numbers {words : List String} {text : String}
    (hnumeric : AllNumeric session.stack) (hwords : AllNumeric words)
    (hlast : words.getLast? = some text) :
    session.submitWords words =
      (if words.length = 1 then .number text else .result text,
        { session with stack := session.stack ++ words }) := by
  have hcandidate : AllNumeric (session.stack ++ words) := allNumeric_append.mpr ⟨hnumeric, hwords⟩
  obtain ⟨front, rfl⟩ := List.getLast?_eq_some_iff.mp hlast
  rcases hfront : front with _ | ⟨word, front'⟩
  · -- a single number is pushed without a reduction
    subst hfront
    have htext : isNumeric text = true := hwords text (by simp)
    rw [List.nil_append, submitWords_number htext (isAcceptable_of_allNumeric hcandidate)]
    rfl
  · -- several numbers are reduced to themselves
    rw [← hfront]
    have hlen : 2 ≤ (front ++ [text]).length := by simp [hfront]
    have haccepts := accepts_of_allNumeric session.engine hcandidate
    rw [← List.append_assoc, List.reverse_append, List.reverse_singleton,
      List.append_assoc] at haccepts
    rw [submitWords_result (asksToQuit_of_two_le hlen) (isSingleNumber_of_two_le hlen) haccepts,
      if_neg (by omega)]
    simp

/-- The words of the current expression are the stack. -/
theorem words_expression? {expression : String} (hnumeric : AllNumeric session.stack)
    (h : session.expression? = some expression) : Text.words expression = session.stack := by
  unfold expression? at h
  split at h
  · cases h
  · cases h
    exact Text.words_joinWords session.stack fun w hw => isWord_of_numeric (hnumeric w hw)

/-- There is a current expression where something is stacked. -/
theorem exists_expression? (hne : session.stack ≠ []) :
    ∃ expression, session.expression? = some expression :=
  ⟨_, if_neg hne⟩

/-- **The current expression restores the session.**  Its words are the stack of the session that
shows it.  Entered as a line into a new session of the same configuration, it is carried out,
answers with the topmost number and leaves the session as it was. -/
theorem submit_expression (config : Config) (commands : List Command)
    (hne : ((ofConfig config).perform commands).stack ≠ []) :
    let session := (ofConfig config).perform commands
    ∃ expression text, session.expression? = some expression ∧
      Text.words expression = session.stack ∧ session.stack.getLast? = some text ∧
      (ofConfig config).submit expression =
        (if session.stack.length = 1 then .number text else .result text, session) := by
  intro session
  have hnumeric : AllNumeric session.stack := allNumeric_perform AllNumeric.nil commands
  have hengine : session.engine = (ofConfig config).engine := engine_perform _ commands
  obtain ⟨expression, hexpression⟩ := exists_expression? hne
  have hlast : session.stack.getLast? = some (session.stack.getLast hne) :=
    List.getLast?_eq_getLast_of_ne_nil hne
  refine ⟨expression, _, hexpression, words_expression? hnumeric hexpression, hlast, ?_⟩
  rw [submit, words_expression? hnumeric hexpression,
    submitWords_numbers AllNumeric.nil hnumeric hlast, ← hengine]
  rfl

/-- A third of two places, a number written with more, and a huge one are restored as they are. -/
theorem submit_expression_third :
    let session : Session := ⟨Engine.ofConfig { precision := 2 }, ["0.33", "2.500", "1e20"]⟩
    ((ofConfig { precision := 2 }).perform [.line "1 3 /", .line "2.500\t1e20"]).stack ≠ [] ∧
      session.expression? = some "0.33 2.500 1e20" ∧
      (ofConfig { precision := 2 }).submit "0.33 2.500 1e20" = (.result "1e20", session) := by
  intro session
  have hperform : (ofConfig { precision := 2 }).perform [.line "1 3 /", .line "2.500\t1e20"] =
      session := by
    decide +kernel
  have hne : ((ofConfig { precision := 2 }).perform
      [.line "1 3 /", .line "2.500\t1e20"]).stack ≠ [] := by
    rw [hperform]
    decide
  have hshown : session.expression? = some "0.33 2.500 1e20" := by decide +kernel
  have h := submit_expression { precision := 2 } [.line "1 3 /", .line "2.500\t1e20"] hne
  dsimp only at h
  rw [hperform] at h
  obtain ⟨expression, text, hexpression, -, hlast, hsubmit⟩ := h
  cases hshown.symm.trans hexpression
  cases hlast
  exact ⟨hne, hshown, hsubmit⟩

end PostfixCalculator.Session
