import PostfixCalculator.Proofs.Reduction.Candidate
import PostfixCalculator.Session.Basic

/-!
# The answers to a line

A line has one of six answers.  Each has its own condition on the words of the line and on the
reduction of the candidate, and its own session after it; nothing else can happen.

## Main definitions

* `Answers session words outcome` — the outcomes that the words of a line can have.

## Main results

* `submitWords_answers` — **the outcome of a line is one of them.**
* `submitWords_number`, `submitWords_result` — the lines that are carried out, the other way round.
* `submit_eq_quit_iff` — the lines that end a conversation.
* `engine_perform` — no call changes the engine.
-/

namespace PostfixCalculator.Session

/-- The outcomes that the words of a line can have: an answer and the session after it. -/
inductive Answers (session : Session) (words : List String) : Response × Session → Prop
  /-- The words ask to stop. -/
  | quit (hquit : asksToQuit words = true) : Answers session words (.quit, session)
  /-- The candidate is not acceptable. -/
  | invalidEntry (hstay : asksToQuit words = false)
      (hentry : isAcceptable session.engine.operators (session.stack ++ words) = false) :
      Answers session words (.invalidEntry, session)
  /-- The only word is a number. -/
  | number {word : String} (hwords : words = [word]) (hword : isNumeric word = true)
      (hentry : isAcceptable session.engine.operators (session.stack ++ words) = true) :
      Answers session words (.number word, { session with stack := session.stack ++ [word] })
  /-- The reduction of the candidate divides by zero. -/
  | divisionByZero (hstay : asksToQuit words = false)
      (hentry : isAcceptable session.engine.operators (session.stack ++ words) = true)
      (hreduce : reduceFrom session.engine [] (session.stack ++ words) = .error .divisionByZero) :
      Answers session words (.divisionByZero, session.clear)
  /-- The reduction halts in front of a word. -/
  | missingOperands (hstay : asksToQuit words = false)
      (hentry : isAcceptable session.engine.operators (session.stack ++ words) = true)
      {stack : List String} {word : String} {unread : List String}
      (hreduce : reduceFrom session.engine [] (session.stack ++ words) =
        .ok ⟨stack, word :: unread⟩) :
      Answers session words (.missingOperands, session)
  /-- The reduction reads every word. -/
  | result (hstay : asksToQuit words = false) (hmany : isSingleNumber words = false)
      {text : String} {stack : List String}
      (haccepts : Accepts session.engine (session.stack ++ words) (text :: stack)) :
      Answers session words (.result text, { session with stack := (text :: stack).reverse })

variable {session : Session} {words : List String}

/-! ### Kinds of lines -/

/-- A line that does not ask to stop has a word. -/
theorem ne_nil_of_asksToQuit (h : asksToQuit words = false) : words ≠ [] := by
  rintro rfl
  cases h

/-- A line of two words or more does not ask to stop. -/
theorem asksToQuit_of_two_le (h : 2 ≤ words.length) : asksToQuit words = false := by
  rw [← Bool.not_eq_true]
  intro hquit
  simp only [asksToQuit, Bool.or_eq_true, decide_eq_true_eq] at hquit
  rcases hquit with rfl | rfl <;> simp at h

/-- A number does not ask to stop. -/
theorem asksToQuit_number {word : String} (hword : isNumeric word = true) :
    asksToQuit [word] = false := by
  have hne : word ≠ "q" := by
    rintro rfl
    exact absurd hword (by decide)
  simp [asksToQuit, hne]

theorem isSingleNumber_iff : isSingleNumber words = true ↔
    ∃ word, words = [word] ∧ isNumeric word = true := by
  unfold isSingleNumber
  split
  · next word => simp
  · next hne =>
    simp only [Bool.false_eq_true, false_iff, not_exists, not_and]
    intro word hwords
    exact absurd hwords (hne word)

/-- A line of two words or more is no single number. -/
theorem isSingleNumber_of_two_le (h : 2 ≤ words.length) : isSingleNumber words = false := by
  rw [← Bool.not_eq_true, isSingleNumber_iff]
  rintro ⟨word, rfl, -⟩
  simp at h

/-! ### Each answer -/

theorem submitWords_quit (h : asksToQuit words = true) :
    session.submitWords words = (.quit, session) := by
  rw [submitWords, if_pos h]

theorem submitWords_invalidEntry (hstay : asksToQuit words = false)
    (hentry : isAcceptable session.engine.operators (session.stack ++ words) = false) :
    session.submitWords words = (.invalidEntry, session) := by
  simp only [submitWords, hstay, hentry, Bool.false_eq_true, ↓reduceIte, Bool.not_false]

theorem submitWords_number {word : String} (hword : isNumeric word = true)
    (hentry : isAcceptable session.engine.operators (session.stack ++ [word]) = true) :
    session.submitWords [word] =
      (.number word, { session with stack := session.stack ++ [word] }) := by
  simp only [submitWords, asksToQuit_number hword, hentry, isSingleNumber, hword,
    Bool.false_eq_true, ↓reduceIte, Bool.not_true, List.head?_cons, Option.getD_some]

theorem submitWords_settle (hstay : asksToQuit words = false)
    (hmany : isSingleNumber words = false)
    (hentry : isAcceptable session.engine.operators (session.stack ++ words) = true) :
    session.submitWords words =
      session.settle (reduce session.engine (session.stack ++ words)) := by
  simp only [submitWords, hstay, hmany, hentry, Bool.false_eq_true, ↓reduceIte, Bool.not_true]

theorem settle_numeric {text : String} {stack : List String} (h : AllNumeric (text :: stack)) :
    session.settle (.ok (text :: stack).reverse) =
      (.result text, { session with stack := (text :: stack).reverse }) := by
  rw [settle, if_pos (all_isNumeric_iff.mpr (allNumeric_reverse.mpr h)), List.getLast?_reverse]
  rfl

theorem settle_not_numeric {reduced : List String} (h : ¬AllNumeric reduced) :
    session.settle (.ok reduced) = (.missingOperands, session) := by
  rw [settle, if_neg (mt all_isNumeric_iff.mp h)]

theorem submitWords_result (hstay : asksToQuit words = false)
    (hmany : isSingleNumber words = false) {text : String} {stack : List String}
    (haccepts : Accepts session.engine (session.stack ++ words) (text :: stack)) :
    session.submitWords words =
      (.result text, { session with stack := (text :: stack).reverse }) := by
  obtain ⟨hok, hnumeric⟩ := reduce_eq_ok_numeric_iff.mpr haccepts.2
  rw [submitWords_settle hstay hmany haccepts.1, hok, settle_numeric hnumeric]

/-- **The outcome of a line is one of those described.** -/
theorem submitWords_answers (session : Session) (words : List String) :
    Answers session words (session.submitWords words) := by
  rcases hstay : asksToQuit words with _ | _
  case true =>
    rw [submitWords_quit hstay]
    exact .quit hstay
  rcases hentry : isAcceptable session.engine.operators (session.stack ++ words) with _ | _
  case false =>
    rw [submitWords_invalidEntry hstay hentry]
    exact .invalidEntry hstay hentry
  rcases hmany : isSingleNumber words with _ | _
  case true =>
    obtain ⟨word, rfl, hword⟩ := isSingleNumber_iff.mp hmany
    rw [submitWords_number hword hentry]
    exact .number rfl hword hentry
  rcases hreduce : reduceFrom session.engine [] (session.stack ++ words) with
    e | ⟨stack, _ | ⟨word, unread⟩⟩
  · -- no other error comes out of a reduction
    obtain rfl := eq_divisionByZero_of_reduceFrom _ _ hreduce
    rw [submitWords_settle hstay hmany hentry, reduce, hreduce]
    exact .divisionByZero hstay hentry hreduce
  · -- every word has been read, and the first one has left something to answer
    have hne : session.stack ++ words ≠ [] :=
      List.append_ne_nil_of_right_ne_nil _ (ne_nil_of_asksToQuit hstay)
    obtain ⟨text, below, rfl⟩ :=
      List.exists_cons_of_ne_nil (stack_ne_nil_of_isAcceptable hne hentry hreduce)
    rw [submitWords_result hstay hmany ⟨hentry, hreduce⟩]
    exact .result hstay hmany ⟨hentry, hreduce⟩
  · -- the word that halts the reduction is shown, and is no number
    have hok : reduce session.engine (session.stack ++ words) =
        .ok (stack.reverse ++ word :: unread) := by
      rw [reduce, hreduce]
      rfl
    rw [submitWords_settle hstay hmany hentry, hok,
      settle_not_numeric (not_allNumeric_of_unread hreduce)]
    exact .missingOperands hstay hentry hreduce

/-- A line is answered by stopping exactly when it asks to. -/
theorem submit_eq_quit_iff {line : String} :
    (session.submit line).1 = .quit ↔ asksToQuit (Text.words line) = true := by
  have hanswers := submitWords_answers session (Text.words line)
  unfold submit
  generalize session.submitWords (Text.words line) = outcome at hanswers ⊢
  cases hanswers with
  | quit hquit => simp [hquit]
  | invalidEntry hstay _ => simp [hstay]
  | number hwords hword _ => simp [hwords, asksToQuit_number hword]
  | divisionByZero hstay _ _ => simp [hstay]
  | missingOperands hstay _ _ => simp [hstay]
  | result hstay _ _ => simp [hstay]

/-! ### Histories -/

/-- A line does not change the engine. -/
theorem engine_submitWords (session : Session) (words : List String) :
    (session.submitWords words).2.engine = session.engine := by
  have hanswers := submitWords_answers session words
  generalize session.submitWords words = outcome at hanswers ⊢
  cases hanswers <;> rfl

/-- No call changes the engine. -/
theorem engine_perform (session : Session) (commands : List Command) :
    (session.perform commands).engine = session.engine := by
  induction commands generalizing session with
  | nil => rfl
  | cons command commands ih =>
    have hstep : (session.step command).engine = session.engine := by
      cases command with
      | line text => exact engine_submitWords session _
      | clear => rfl
    show ((session.step command).perform commands).engine = session.engine
    rw [ih, hstep]

end PostfixCalculator.Session
