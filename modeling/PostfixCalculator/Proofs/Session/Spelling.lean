import PostfixCalculator.Proofs.Reduction.Spelling
import PostfixCalculator.Proofs.Session.Answers

/-!
# Sessions and the spelling of numbers

Two exact sessions that hold the same numbers, spelled differently, answer alike to lines that
differ in the spelling of their numbers.  They are left with the same numbers, so they go on
answering alike.  What an operator has computed on the way is the same text in both.

## Main definitions

* `Response.Alike`, `Command.Alike`, `Session.Alike` — answers, calls and sessions that differ in
  the spelling of numbers alone.

## Main results

* `submitWords_respelled` — alike sessions answer alike, and stay alike.
* `perform_respelled` — so they do through any calls.
* `submit_respelled` — **the spelling of numbers never matters to an exact session.**
-/

namespace PostfixCalculator

/-- Answers of one kind, which show the same number where they show one. -/
inductive Response.Alike : Response → Response → Prop
  | quit : Alike .quit .quit
  | invalidEntry : Alike .invalidEntry .invalidEntry
  | number {text text' : String} (h : SameNumber text text') : Alike (.number text) (.number text')
  | result {text text' : String} (h : SameNumber text text') : Alike (.result text) (.result text')
  | divisionByZero : Alike .divisionByZero .divisionByZero
  | missingOperands : Alike .missingOperands .missingOperands

/-- Calls that differ in the spelling of numbers alone: lines with the same words, each of which may
be replaced by another literal of its number. -/
inductive Command.Alike : Command → Command → Prop
  | line {line line' : String} (h : List.Forall₂ Respells (Text.words line) (Text.words line')) :
    Alike (.line line) (.line line')
  | clear : Alike .clear .clear

/-- Exact sessions of one engine whose stacks hold the same numbers. -/
structure Session.Alike (session session' : Session) : Prop where
  exact : session.engine.backend = .exact
  engine : session'.engine = session.engine
  stack : List.Forall₂ SameNumber session.stack session'.stack

namespace Session

variable {session session' : Session} {words words' : List String}

/-! ### Kinds of lines -/

theorem isSingleNumber_respelled (h : List.Forall₂ Respells words words') :
    isSingleNumber words = isSingleNumber words' := by
  rcases h with _ | ⟨hword, _ | ⟨_, _⟩⟩
  · rfl
  · exact hword.isNumeric_eq
  · rfl

theorem asksToQuit_respelled (h : List.Forall₂ Respells words words') :
    asksToQuit words = asksToQuit words' := by
  rcases h with _ | ⟨hword, _ | ⟨_, _⟩⟩
  · rfl
  · rcases hword with rfl | hword
    · rfl
    · rw [asksToQuit_number hword.isNumeric_left, asksToQuit_number hword.isNumeric_right]
  · simp [asksToQuit]

/-! ### One line -/

/-- Outcomes of a line that are alike: the answer, and the session after it. -/
def OutcomesAlike (outcome outcome' : Response × Session) : Prop :=
  outcome.1.Alike outcome'.1 ∧ outcome.2.Alike outcome'.2

/-- A stack that is committed is answered with its topmost number. -/
theorem settle_respelled (hsession : session.Alike session')
    {outcome outcome' : Except CalcError (List String)}
    (h : Agree (List.Forall₂ Respells) outcome outcome') (hne : outcome ≠ .ok [])
    (hfatal : ∀ e, outcome = .error e → e = .divisionByZero) :
    OutcomesAlike (session.settle outcome) (session'.settle outcome') := by
  cases h with
  | error e =>
    obtain rfl := hfatal e rfl
    exact ⟨.divisionByZero, hsession.exact, hsession.engine, .nil⟩
  | @ok shown shown' hshown =>
    have hall : shown.all isNumeric = shown'.all isNumeric :=
      all_respelled Respells.isNumeric_eq hshown
    by_cases hnumeric : AllNumeric shown
    · -- the topmost numbers are the first of the lists reversed
      have hnumeric' : AllNumeric shown' := by
        rwa [← all_isNumeric_iff, ← hall, all_isNumeric_iff]
      have hsame := sameNumber_of_respells hshown hnumeric
      have hreversed := List.rel_reverse hsame
      rcases hstack : shown.reverse with _ | ⟨text, below⟩
      · exact absurd (congrArg Except.ok (List.reverse_eq_nil_iff.mp hstack)) hne
      rw [hstack] at hreversed
      obtain ⟨text', below', htext, -, hstack'⟩ := List.forall₂_cons_left_iff.mp hreversed
      obtain rfl := List.reverse_eq_iff.mp hstack
      obtain rfl := List.reverse_eq_iff.mp hstack'
      rw [settle_numeric (allNumeric_reverse.mp hnumeric),
        settle_numeric (allNumeric_reverse.mp hnumeric')]
      exact ⟨.result htext, hsession.exact, hsession.engine, hsame⟩
    · have hnumeric' : ¬AllNumeric shown' := by
        rwa [← all_isNumeric_iff, ← hall, all_isNumeric_iff]
      rw [settle_not_numeric hnumeric, settle_not_numeric hnumeric']
      exact ⟨.missingOperands, hsession⟩

/-- The candidates of alike sessions differ in spelling alone. -/
theorem Alike.candidate (h : session.Alike session')
    (hwords : List.Forall₂ Respells words words') :
    List.Forall₂ Respells (session.stack ++ words) (session'.stack ++ words') :=
  List.rel_append (h.stack.imp fun _ _ => SameNumber.respells) hwords

/-- **Alike sessions answer alike, and stay alike.** -/
theorem submitWords_respelled (h : session.Alike session')
    (hwords : List.Forall₂ Respells words words') :
    OutcomesAlike (session.submitWords words) (session'.submitWords words') := by
  have hcandidate := h.candidate hwords
  have hquit := asksToQuit_respelled hwords
  have hacceptable : isAcceptable session.engine.operators (session.stack ++ words) =
      isAcceptable session'.engine.operators (session'.stack ++ words') := by
    rw [h.engine, isAcceptable_respelled hcandidate]
  cases hstay : asksToQuit words with
  | true =>
    rw [submitWords_quit hstay, submitWords_quit (hquit ▸ hstay)]
    exact ⟨.quit, h⟩
  | false =>
    cases hentry : isAcceptable session.engine.operators (session.stack ++ words) with
    | false =>
      rw [submitWords_invalidEntry hstay hentry,
        submitWords_invalidEntry (hquit ▸ hstay) (hacceptable ▸ hentry)]
      exact ⟨.invalidEntry, h⟩
    | true =>
      have hsingle := isSingleNumber_respelled hwords
      cases hmany : isSingleNumber words with
      | true =>
        obtain ⟨word, rfl, hword⟩ := isSingleNumber_iff.mp hmany
        obtain ⟨word', rfl, hword'⟩ := isSingleNumber_iff.mp (hsingle ▸ hmany)
        have hsame := sameNumber_of_respells hwords (allNumeric_cons.mpr ⟨hword, AllNumeric.nil⟩)
        rw [submitWords_number hword hentry, submitWords_number hword' (hacceptable ▸ hentry)]
        exact ⟨.number (List.forall₂_cons.mp hsame).1, h.exact, h.engine,
          List.rel_append h.stack hsame⟩
      | false =>
        rw [submitWords_settle hstay hmany hentry,
          submitWords_settle (hquit ▸ hstay) (hsingle ▸ hmany) (hacceptable ▸ hentry), h.engine]
        apply settle_respelled h (reduce_respelled h.exact hcandidate)
        · exact reduce_ne_ok_nil
            (List.append_ne_nil_of_right_ne_nil _ (ne_nil_of_asksToQuit hstay)) hentry
        · intro e
          exact eq_divisionByZero_of_reduce

/-! ### Histories -/

theorem step_respelled (h : session.Alike session') {command command' : Command}
    (hcommand : command.Alike command') :
    (session.step command).Alike (session'.step command') := by
  cases hcommand with
  | line hline => exact (submitWords_respelled h hline).2
  | clear => exact ⟨h.exact, h.engine, .nil⟩

/-- Alike sessions stay alike through calls that differ in spelling alone. -/
theorem perform_respelled {commands commands' : List Command}
    (hcommands : List.Forall₂ Command.Alike commands commands') :
    ∀ {session session' : Session}, session.Alike session' →
      (session.perform commands).Alike (session'.perform commands') := by
  induction hcommands with
  | nil =>
    intro session session' h
    exact h
  | cons hcommand _ ih =>
    intro session session' h
    exact ih (step_respelled h hcommand)

/-- **The spelling of numbers never matters to an exact session.**  Let two exact sessions of one
configuration hold the same numbers, and let them go through calls, and then a line, that differ in
the spelling of numbers alone.  They hold the same numbers before the line and after it.  They
answer it alike, with the same number where there is one, and every result that an operator pushes
while the line is reduced is the same text in both. -/
theorem submit_respelled (config : Config) (hexact : config.backend = .exact)
    {stack stack' : List String} (hstack : List.Forall₂ SameNumber stack stack')
    {commands commands' : List Command} (hcommands : List.Forall₂ Command.Alike commands commands')
    {line line' : String} (hline : List.Forall₂ Respells (Text.words line) (Text.words line')) :
    let session := perform ⟨Engine.ofConfig config, stack⟩ commands
    let session' := perform ⟨Engine.ofConfig config, stack'⟩ commands'
    List.Forall₂ SameNumber session.stack session'.stack ∧
      (session.submit line).1.Alike (session'.submit line').1 ∧
      List.Forall₂ SameNumber (session.submit line).2.stack (session'.submit line').2.stack ∧
      pushedResults session.engine [] (session.stack ++ Text.words line) =
        pushedResults session'.engine [] (session'.stack ++ Text.words line') := by
  intro session session'
  have halike : session.Alike session' := perform_respelled hcommands ⟨hexact, rfl, hstack⟩
  obtain ⟨hanswer, hafter⟩ := submitWords_respelled halike hline
  refine ⟨halike.stack, hanswer, hafter.stack, ?_⟩
  rw [halike.engine]
  exact pushedResults_respelled halike.exact (halike.candidate hline) .nil

/-- Ten, spelled in four ways, twice summed; and a third of the sum, cut to two places. -/
theorem submit_respelled_ten :
    let engine := Engine.ofConfig { precision := 2 }
    let session := perform ⟨engine, ["1e1"]⟩ [.line "010.00 +"]
    let session' := perform ⟨engine, ["10."]⟩ [.line "1000e-2 +"]
    List.Forall₂ SameNumber ["1e1"] ["10."] ∧
      List.Forall₂ Command.Alike [.line "010.00 +"] [.line "1000e-2 +"] ∧
      List.Forall₂ Respells ["3.0", "/"] ["30e-1", "/"] ∧
      (session.submit "3.0 /").1.Alike (session'.submit "30e-1 /").1 ∧
      pushedResults session.engine [] (session.stack ++ ["3.0", "/"]) =
        pushedResults session'.engine [] (session'.stack ++ ["30e-1", "/"]) := by
  intro engine session session'
  have hstack : List.Forall₂ SameNumber ["1e1"] ["10."] := by decide +kernel
  have hcommands : List.Forall₂ Command.Alike [.line "010.00 +"] [.line "1000e-2 +"] :=
    .cons (.line (by decide +kernel)) .nil
  have hwords : Text.words "3.0 /" = ["3.0", "/"] ∧ Text.words "30e-1 /" = ["30e-1", "/"] := by
    decide +kernel
  have hline : List.Forall₂ Respells (Text.words "3.0 /") (Text.words "30e-1 /") := by
    decide +kernel
  obtain ⟨-, hanswer, -, hpushed⟩ :=
    submit_respelled { precision := 2 } rfl hstack hcommands hline
  rw [hwords.1, hwords.2] at hline hpushed
  exact ⟨hstack, hcommands, hline, hanswer, hpushed⟩

end Session

end PostfixCalculator
