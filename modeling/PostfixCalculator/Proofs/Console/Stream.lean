import PostfixCalculator.Console.Stream
import PostfixCalculator.Proofs.Console.Lines
import PostfixCalculator.Proofs.Session.Answers

/-!
# Conversations over a stream in two parts

A line that goes on leaves a session, and what is said after it depends on that session alone.  So
the conversation over whole lines and what follows them is the conversation over these lines, up to
its last prompt, and then the one over what follows.  A line that asks to stop or is no text ends it
behind the prompt, whatever the stream still holds.

## Main definitions

* `GoesOn line`, `Quits line` — a line that is a text and does not ask to stop, or does.
* `Transcript.behind` — a conversation with exchanges put before it.

## Main results

* `converse_cons_of_goesOn`, `converse_cons_of_quits` — what a line comes to.
* `ending_converse_eq_exhausted_iff` — when a conversation ends with its lines.
* `exists_converse_append` — what lines that go on leave for those behind them.
* `overStream_append` — **a conversation over a stream in two parts.**
-/

namespace PostfixCalculator.Console

/-- The line is a text and does not ask to stop. -/
def GoesOn (line : Option String) : Prop :=
  ∃ text, line = some text ∧ Session.asksToQuit (Text.words text) = false

/-- The line is a text and asks to stop. -/
def Quits (line : Option String) : Prop :=
  ∃ text, line = some text ∧ Session.asksToQuit (Text.words text) = true

/-- A conversation behind others: `written` has been written for the exchanges before it. -/
def Transcript.behind (written : String) (exchanges : List Exchange) (later : Transcript) :
    Transcript :=
  { later with output := written ++ later.output, exchanges := exchanges ++ later.exchanges }

theorem Transcript.behind_behind (written written' : String) (exchanges exchanges' : List Exchange)
    (later : Transcript) : (later.behind written' exchanges').behind written exchanges =
      later.behind (written ++ written') (exchanges ++ exchanges') := by
  rw [behind, behind, behind]
  simp only [String.append_assoc, List.append_assoc]

/-- Of a conversation that ends at once, what came before it is left. -/
theorem Transcript.behind_stop (written output : String) (exchanges : List Exchange)
    (session : Session) (ending : Ending) :
    (Transcript.stop output session ending).behind written exchanges =
      ⟨written ++ output, exchanges, session, ending⟩ := by
  rw [behind, stop, List.append_nil]

/-! ### One line -/

/-- **A line that goes on is answered**, and the others are taken by the session that it leaves. -/
theorem converse_cons_of_goesOn {text : String}
    (h : Session.asksToQuit (Text.words text) = false) (session : Session)
    (lines : List (Option String)) :
    converse session (some text :: lines) = (converse (session.submit text).2 lines).behind
      (prompt ++ unlines ((session.submit text).2.report (session.submit text).1))
      [⟨(session.submit text).1, (session.submit text).2.stack⟩] := by
  have hresponse : (session.submit text).1 ≠ .quit := by
    rw [ne_eq, Session.submit_eq_quit_iff, h]
    exact Bool.false_ne_true
  rw [converse]
  exact if_neg hresponse

/-- A line that asks to stop is the last one, whatever follows it. -/
theorem converse_cons_of_quits {line : Option String} (h : Quits line) (session : Session)
    (lines : List (Option String)) : converse session (line :: lines) =
      ⟨prompt, [⟨.quit, session.stack⟩], session, .quit⟩ := by
  obtain ⟨text, rfl, hquit⟩ := h
  have hsubmit : session.submit text = (.quit, session) := Session.submitWords_quit hquit
  rw [converse, hsubmit]
  rfl

/-! ### Several lines -/

/-- A conversation ends with its lines when all of them go on. -/
theorem ending_converse_eq_exhausted_iff {lines : List (Option String)} :
    ∀ session, (converse session lines).ending = .exhausted ↔ ∀ line ∈ lines, GoesOn line := by
  induction lines with
  | nil => intro session; exact iff_of_true rfl nofun
  | cons line lines ih =>
    intro session
    rw [List.forall_mem_cons]
    rcases line with _ | text
    · exact iff_of_false nofun fun h => by obtain ⟨_, hline, -⟩ := h.1; cases hline
    rcases hstops : Session.asksToQuit (Text.words text) with _ | _
    · rw [converse_cons_of_goesOn hstops, Transcript.behind, ih]
      exact (and_iff_right ⟨text, rfl, hstops⟩).symm
    · rw [converse_cons_of_quits ⟨text, rfl, hstops⟩]
      refine iff_of_false nofun fun h => ?_
      obtain ⟨_, hline, hstay⟩ := h.1
      cases hline
      rw [hstops] at hstay
      cases hstay

/-- **Lines that go on are answered**, and those behind them are taken by the session that they
leave. -/
theorem exists_converse_append {lines : List (Option String)} :
    ∀ session, (∀ line ∈ lines, GoesOn line) → ∃ written exchanges after, ∀ lines',
      converse session (lines ++ lines') =
        (converse after lines').behind written exchanges := by
  induction lines with
  | nil =>
    intro session _
    refine ⟨"", [], session, fun lines' => ?_⟩
    rw [Transcript.behind, String.empty_append]
    rfl
  | cons line lines ih =>
    intro session h
    obtain ⟨⟨text, rfl, hstay⟩, hlines⟩ := List.forall_mem_cons.mp h
    let response := (session.submit text).1
    let next := (session.submit text).2
    obtain ⟨written, exchanges, after, hafter⟩ := ih next hlines
    refine ⟨prompt ++ unlines (next.report response) ++ written,
      [⟨response, next.stack⟩] ++ exchanges, after, fun lines' => ?_⟩
    rw [List.cons_append, converse_cons_of_goesOn hstay, hafter, Transcript.behind_behind]

theorem overStream_eq (session : Session) (greet : Bool) (bytes : List UInt8) :
    overStream session greet bytes =
      (converse session (streamLines bytes)).behind (greeting greet) [] := rfl

/-- Without a greeting, the conversation over the lines is all there is. -/
theorem overStream_false (session : Session) (bytes : List UInt8) :
    overStream session false bytes = converse session (streamLines bytes) := by
  rw [overStream_eq, greeting, if_neg Bool.false_ne_true, Transcript.behind, String.empty_append]
  rfl

/-- What whole lines that go on leave for the bytes behind them. -/
theorem exists_overStream_append (session : Session) (greet : Bool) {bytes : List UInt8}
    (hwhole : WholeLines bytes) (hlines : ∀ line ∈ streamLines bytes, GoesOn line) :
    ∃ written exchanges after,
      overStream session greet bytes = ⟨written ++ "> \n", exchanges, after, .exhausted⟩ ∧
      ∀ bytes', overStream session greet (bytes ++ bytes') =
        (converse after (streamLines bytes')).behind written exchanges := by
  obtain ⟨written, exchanges, after, hafter⟩ := exists_converse_append session hlines
  have hboth : ∀ bytes', overStream session greet (bytes ++ bytes') =
      (converse after (streamLines bytes')).behind (greeting greet ++ written) exchanges := by
    intro bytes'
    rw [overStream_eq, streamLines_append hwhole, hafter, Transcript.behind_behind]
    rfl
  refine ⟨greeting greet ++ written, exchanges, after, ?_, hboth⟩
  -- nothing behind them is the end of the stream
  have hend := hboth []
  rw [List.append_nil] at hend
  rw [hend]
  exact Transcript.behind_stop _ _ exchanges after .exhausted

/-- **A conversation over a stream in two parts.**  Over whole lines that go on, a conversation ends
with the stream, behind the prompt.  When more bytes follow, it goes on from that prompt as the
conversation over these bytes from the session left.  If the first line of these asks to stop or is
no text, only the prompt is added and the session stays; and the bytes behind a line that asks to
stop are not looked at. -/
theorem overStream_append (session : Session) (greet : Bool) {bytes : List UInt8}
    (hwhole : WholeLines bytes) (hlines : ∀ line ∈ streamLines bytes, GoesOn line)
    (bytes' : List UInt8) :
    let first := overStream session greet bytes
    let later := overStream first.session false bytes'
    let both := overStream session greet (bytes ++ bytes')
    first.ending = .exhausted ∧ ∃ written, first.output = written ++ "> \n" ∧
      (both.output = written ++ later.output ∧ both.exchanges = first.exchanges ++ later.exchanges ∧
        both.session = later.session ∧ both.ending = later.ending) ∧
      (∀ line, (streamLines bytes').head? = some line → Quits line →
        both = ⟨written ++ "> ", first.exchanges ++ [⟨.quit, first.session.stack⟩],
          first.session, .quit⟩) ∧
      ((streamLines bytes').head? = some none →
        both = ⟨written ++ "> ", first.exchanges, first.session, .invalidText⟩) ∧
      ∀ line rest rest', bytes' = line ++ lineFeed :: rest → lineFeed ∉ line →
        Quits (textOf? (withoutEnd (line ++ [lineFeed]))) →
        overStream session greet (bytes ++ (line ++ lineFeed :: rest')) = both := by
  obtain ⟨written, exchanges, after, hfirst, hboth⟩ :=
    exists_overStream_append session greet hwhole hlines
  intro first later both
  have hbothEq : both = (converse after (streamLines bytes')).behind written exchanges :=
    hboth bytes'
  have hlater : later = converse after (streamLines bytes') := by
    show overStream (overStream session greet bytes).session false bytes' = _
    rw [hfirst, overStream_false]
  -- behind a first line that asks to stop, nothing is looked at
  have hquits : ∀ line lines, Quits line →
      (converse after (line :: lines)).behind written exchanges =
        ⟨written ++ "> ", exchanges ++ [⟨.quit, after.stack⟩], after, .quit⟩ := by
    intro line lines hline
    rw [converse_cons_of_quits hline]
    rfl
  rw [show first = ⟨written ++ "> \n", exchanges, after, .exhausted⟩ from hfirst, hlater, hbothEq]
  refine ⟨rfl, written, rfl, ⟨rfl, rfl, rfl, rfl⟩, ?_, ?_, ?_⟩
  · intro line hhead hline
    obtain ⟨lines, hlines'⟩ := List.head?_eq_some_iff.mp hhead
    rw [hlines', hquits line lines hline]
  · intro hhead
    obtain ⟨lines, hlines'⟩ := List.head?_eq_some_iff.mp hhead
    rw [hlines']
    exact Transcript.behind_stop _ _ exchanges after .invalidText
  · intro line rest rest' hbytes hline hquit
    rw [hboth, hbytes, streamLines_append_lineFeed hline, streamLines_append_lineFeed hline,
      hquits _ _ hquit, hquits _ _ hquit]

/-- The bytes of `1 2`, a carriage return and a line feed, then of `+` and a line feed. -/
theorem overStream_append_sum :
    let session := Session.ofConfig {}
    let bytes := [49, 32, 50, 13, 10, 43, 10]
    let first := overStream session true bytes
    WholeLines bytes ∧ (∀ line ∈ streamLines bytes, GoesOn line) ∧ first.session.stack = ["3"] ∧
      ∃ written, first.output = written ++ "> \n" ∧
        -- a line `q`, and then a byte that is no text
        overStream session true (bytes ++ [113, 10, 255]) =
          ⟨written ++ "> ", first.exchanges ++ [⟨.quit, ["3"]⟩], first.session, .quit⟩ ∧
        overStream session true (bytes ++ [113, 10]) =
          overStream session true (bytes ++ [113, 10, 255]) := by
  intro session bytes first
  have hwhole : WholeLines bytes := .inr rfl
  have hlines : ∀ line ∈ streamLines bytes, GoesOn line := by
    rw [show streamLines bytes = [some "1 2", some "+"] by decide +kernel]
    simp only [List.mem_cons, List.not_mem_nil, or_false, forall_eq_or_imp, forall_eq]
    exact ⟨⟨"1 2", rfl, by decide +kernel⟩, ⟨"+", rfl, by decide +kernel⟩⟩
  have hstack : first.session.stack = ["3"] := by decide +kernel
  obtain ⟨-, written, houtput, -, hquits, -, hrest⟩ :=
    overStream_append session true hwhole hlines [113, 10, 255]
  have hquit : Quits (some "q") := ⟨"q", rfl, by decide +kernel⟩
  have hboth := hquits (some "q") (by decide +kernel) hquit
  rw [show (overStream session true bytes).session.stack = ["3"] from hstack] at hboth
  refine ⟨hwhole, hlines, hstack, written, houtput, hboth, hrest [113] [255] [] rfl (by decide) ?_⟩
  rw [show textOf? (withoutEnd ([113] ++ [lineFeed])) = some "q" by decide +kernel]
  exact hquit

end PostfixCalculator.Console
