import PostfixCalculator.Proofs.Session.Invariant
import PostfixCalculator.Proofs.Text.Words

/-!
# Line breaks

A computation may be entered on one line or on two.  The words are the same, but they are looked at
differently: the test of an entry sees the words of the second line either behind the words of the
first or behind the stack that these have left, and a line that is a single number is not reduced at
all.  None of this separates a computation that is carried out from one that is not.

## Main definitions

* `Response.shown?` — the number that an answer shows, where the line has been carried out.

## Main results

* `submitWords_shown?_iff` — the lines that are carried out are those whose candidate is accepted.
* `submit_joined_lines` — one line and two lines are carried out alike.
-/

namespace PostfixCalculator

/-- The number that an answer shows, where the line has been carried out. -/
def Response.shown? : Response → Option String
  | .number text | .result text => some text
  | .quit | .invalidEntry | .divisionByZero | .missingOperands => none

namespace Session

variable {session : Session} {words : List String}

/-- Two lines that do not ask to stop have two words or more between them. -/
theorem two_le_length_append {words' : List String} (hstay : asksToQuit words = false)
    (hstay' : asksToQuit words' = false) : 2 ≤ (words ++ words').length := by
  have hpos := List.length_pos_iff.mpr (ne_nil_of_asksToQuit hstay)
  have hpos' := List.length_pos_iff.mpr (ne_nil_of_asksToQuit hstay')
  rw [List.length_append]
  omega

/-- The candidate of a single number is accepted as it is. -/
theorem accepts_number {word : String} (hnumeric : AllNumeric session.stack)
    (hword : isNumeric word = true) :
    Accepts session.engine (session.stack ++ [word]) (word :: session.stack.reverse) := by
  have hall : AllNumeric (session.stack ++ [word]) :=
    allNumeric_append.mpr ⟨hnumeric, allNumeric_cons.mpr ⟨hword, AllNumeric.nil⟩⟩
  have haccepts := accepts_of_allNumeric session.engine hall
  rwa [List.reverse_append, List.reverse_singleton] at haccepts

/-- **The lines that are carried out are those whose candidate is accepted**, with the topmost
number as the answer.  The line that is a single number is no exception, though it is not
reduced. -/
theorem submitWords_shown?_iff {text : String} {after : Session}
    (hnumeric : AllNumeric session.stack) (hstay : asksToQuit words = false) :
    ((session.submitWords words).1.shown? = some text ∧ (session.submitWords words).2 = after) ↔
      ∃ below, Accepts session.engine (session.stack ++ words) (text :: below) ∧
        after = ⟨session.engine, (text :: below).reverse⟩ := by
  have hanswers := submitWords_answers session words
  generalize session.submitWords words = outcome at hanswers ⊢
  constructor
  · rintro ⟨hshown, rfl⟩
    cases hanswers with
    | number hwords hword _ =>
      -- the number is pushed, which is all that its reduction would do
      cases hshown
      subst hwords
      exact ⟨_, accepts_number hnumeric hword, by simp⟩
    | result _ _ haccepts =>
      cases hshown
      exact ⟨_, haccepts, rfl⟩
    | quit => cases hshown
    | invalidEntry => cases hshown
    | divisionByZero => cases hshown
    | missingOperands => cases hshown
  · rintro ⟨below, haccepts, rfl⟩
    cases hanswers with
    | quit hquit =>
      rw [hquit] at hstay
      cases hstay
    | invalidEntry _ hnone =>
      rw [haccepts.1] at hnone
      cases hnone
    | number hwords hword _ =>
      subst hwords
      cases (accepts_number hnumeric hword).unique haccepts
      exact ⟨rfl, by simp⟩
    | divisionByZero _ _ hfail =>
      rw [haccepts.2] at hfail
      cases hfail
    | missingOperands _ _ hhalt =>
      rw [haccepts.2] at hhalt
      cases hhalt
    | result _ _ haccepts' =>
      cases haccepts.unique haccepts'
      exact ⟨rfl, rfl⟩

/-- A line of two words or more answers with a result, if it is carried out. -/
theorem shown?_eq_some_iff_of_two_le {text : String} (hlen : 2 ≤ words.length) :
    (session.submitWords words).1.shown? = some text ↔
      (session.submitWords words).1 = .result text := by
  have hanswers := submitWords_answers session words
  generalize session.submitWords words = outcome at hanswers ⊢
  cases hanswers with
  | number hwords _ _ =>
    rw [hwords, List.length_singleton] at hlen
    omega
  | quit => simp [Response.shown?]
  | invalidEntry => simp [Response.shown?]
  | divisionByZero => simp [Response.shown?]
  | missingOperands => simp [Response.shown?]
  | result => simp [Response.shown?]

/-- The words of two lines are carried out together exactly when they are carried out one after the
other, and then with the same answer and the same session after them. -/
theorem submitWords_append_shown?_iff {words' : List String} {text : String} {after : Session}
    (hnumeric : AllNumeric session.stack) (hstay : asksToQuit words = false)
    (hstay' : asksToQuit words' = false) :
    ((session.submitWords (words ++ words')).1.shown? = some text ∧
        (session.submitWords (words ++ words')).2 = after) ↔
      (∃ t, (session.submitWords words).1.shown? = some t) ∧
        ((session.submitWords words).2.submitWords words').1.shown? = some text ∧
        ((session.submitWords words).2.submitWords words').2 = after := by
  have hcandidate : session.stack ++ words ≠ [] :=
    List.append_ne_nil_of_right_ne_nil _ (ne_nil_of_asksToQuit hstay)
  have hwords' : words' ≠ [] := ne_nil_of_asksToQuit hstay'
  have hboth : asksToQuit (words ++ words') = false :=
    asksToQuit_of_two_le (two_le_length_append hstay hstay')
  have hfirst : ∀ t middle, Accepts session.engine (session.stack ++ words) (t :: middle) →
      (session.submitWords words).1.shown? = some t ∧
        (session.submitWords words).2 = ⟨session.engine, (t :: middle).reverse⟩ :=
    fun t middle h => (submitWords_shown?_iff hnumeric hstay).mpr ⟨middle, h, rfl⟩
  rw [submitWords_shown?_iff hnumeric hboth, ← List.append_assoc]
  constructor
  · -- the stack in between is what the first line leaves
    rintro ⟨below, haccepts, rfl⟩
    obtain ⟨stack, hstack, hrest⟩ := (accepts_append_iff hcandidate hwords').mp haccepts
    obtain ⟨t, middle, rfl⟩ := List.exists_cons_of_ne_nil (hstack.stack_ne_nil hcandidate)
    obtain ⟨hshown, hafter⟩ := hfirst t middle hstack
    refine ⟨⟨t, hshown⟩, ?_⟩
    rw [hafter]
    exact (submitWords_shown?_iff (allNumeric_reverse.mpr hstack.allNumeric) hstay').mpr
      ⟨below, hrest, rfl⟩
  · rintro ⟨⟨t, hshown⟩, hsecond⟩
    obtain ⟨middle, hstack, hafter⟩ := (submitWords_shown?_iff hnumeric hstay).mp ⟨hshown, rfl⟩
    rw [hafter] at hsecond
    obtain ⟨below, hrest, rfl⟩ :=
      (submitWords_shown?_iff (allNumeric_reverse.mpr hstack.allNumeric) hstay').mp hsecond
    exact ⟨below, (accepts_append_iff hcandidate hwords').mpr ⟨_, hstack, hrest⟩, rfl⟩

/-- **Line breaks do not matter to a computation that is carried out.**  In every reachable session,
two lines that do not ask to stop are carried out as one line exactly when both are carried out one
after the other.  Then the sessions after them are the same, and so are the numbers answered. -/
theorem submit_joined_lines (config : Config) (commands : List Command) (line line' : String)
    (hstay : asksToQuit (Text.words line) = false)
    (hstay' : asksToQuit (Text.words line') = false) :
    let session := (ofConfig config).perform commands
    let joined := session.submit (line ++ " " ++ line')
    let first := session.submit line
    let second := first.2.submit line'
    ((∃ text, joined.1 = .result text) ↔
      (∃ text, first.1.shown? = some text) ∧ ∃ text, second.1.shown? = some text) ∧
    ∀ text, joined.1 = .result text → second.1.shown? = some text ∧ joined.2 = second.2 := by
  intro session joined first second
  have hnumeric : AllNumeric session.stack := allNumeric_perform AllNumeric.nil commands
  have hjoined : joined = session.submitWords (Text.words line ++ Text.words line') :=
    congrArg session.submitWords (Text.words_joined line line')
  have hresult : ∀ text, joined.1 = .result text ↔ joined.1.shown? = some text := by
    rw [hjoined]
    exact fun text => (shown?_eq_some_iff_of_two_le (two_le_length_append hstay hstay')).symm
  have hsplit : ∀ text after, (joined.1.shown? = some text ∧ joined.2 = after) ↔
      (∃ t, first.1.shown? = some t) ∧ second.1.shown? = some text ∧ second.2 = after := by
    rw [hjoined]
    exact fun text after => submitWords_append_shown?_iff hnumeric hstay hstay'
  refine ⟨⟨?_, ?_⟩, ?_⟩
  · rintro ⟨text, htext⟩
    obtain ⟨hfirst, hsecond, -⟩ := (hsplit text joined.2).mp ⟨(hresult text).mp htext, rfl⟩
    exact ⟨hfirst, text, hsecond⟩
  · rintro ⟨hfirst, text, hsecond⟩
    exact ⟨text, (hresult text).mpr ((hsplit text second.2).mpr ⟨hfirst, hsecond, rfl⟩).1⟩
  · intro text htext
    obtain ⟨-, hsecond, hafter⟩ := (hsplit text joined.2).mp ⟨(hresult text).mp htext, rfl⟩
    exact ⟨hsecond, hafter.symm⟩

/-- With one stacked, the number two, a sum and a product by three make nine on one line or two. -/
theorem submit_joined_lines_nine :
    asksToQuit (Text.words "2") = false ∧ asksToQuit (Text.words "+ 3 *") = false ∧
      let session := (ofConfig {}).perform [.line "1"]
      (session.submit ("2" ++ " " ++ "+ 3 *")).1 = .result "9" ∧
        ((session.submit "2").2.submit "+ 3 *").1.shown? = some "9" ∧
        (session.submit ("2" ++ " " ++ "+ 3 *")).2 = ((session.submit "2").2.submit "+ 3 *").2 := by
  have hstay : asksToQuit (Text.words "2") = false := by decide +kernel
  have hstay' : asksToQuit (Text.words "+ 3 *") = false := by decide +kernel
  have hresult : (((ofConfig {}).perform [.line "1"]).submit ("2" ++ " " ++ "+ 3 *")).1 =
      .result "9" := by
    decide +kernel
  exact ⟨hstay, hstay', hresult,
    (submit_joined_lines {} [.line "1"] "2" "+ 3 *" hstay hstay').2 "9" hresult⟩

end Session

end PostfixCalculator
