import PostfixCalculator.CommandLine.Program
import PostfixCalculator.Proofs.Console.Stream

/-!
# A terminal and a stream

A conversation over a terminal takes its lines one at a time, one over a stream is given all of them
at once.  Line by line both say the same.  Only when the input is used up do they differ: then the
one over a stream ends the line of its last prompt, and the one over a terminal does not.

## Main definitions

* `Transcript.endLine` — a conversation with the line of its last prompt ended.

## Main results

* `converse_streamLines` — what is said over a stream is said over a terminal, line by line.
* `ending_ne_invalidText` — lines that are texts are not refused.
* `hold_terminal_stream` — **a terminal and a stream are answered alike.**
-/

namespace PostfixCalculator

namespace Console

variable {session : Session} {typed line rest : List UInt8}

/-- A conversation with the line of the last prompt ended, where it ended with the input. -/
def Transcript.endLine (t : Transcript) : Transcript :=
  { t with output := t.output ++ if t.ending = .exhausted then "\n" else "" }

theorem Transcript.endLine_after (output : String) (exchange : Exchange) (later : Transcript) :
    (Transcript.after output exchange later).endLine = .after output exchange later.endLine := by
  rw [endLine, after, String.append_assoc]
  rfl

/-! ### One line -/

theorem dialogue_of_none (h : nextLine? typed = none) :
    dialogue session typed = .stop prompt session .exhausted := by
  rw [dialogue]
  split
  · rfl
  · next heq => rw [h] at heq; cases heq

theorem dialogue_of_some (h : nextLine? typed = some (line, rest)) :
    dialogue session typed = match textOf? (withoutEnd line) with
      | none => .stop prompt session .invalidText
      | some text =>
        let (response, next) := session.submit text
        if response = .quit then .after prompt ⟨response, next.stack⟩ (.stop "" next .quit)
        else
          .after (prompt ++ unlines (next.report response)) ⟨response, next.stack⟩
            (dialogue next rest) := by
  rw [dialogue]
  split
  · next heq => rw [h] at heq; cases heq
  · next line' rest' heq =>
    rw [h] at heq
    cases heq
    rw [turn?]
    cases textOf? (withoutEnd line) with
    | none => rfl
    | some text =>
      rw [Option.map_some]
      dsimp only
      rw [Turn.ofText]
      rcases session.submit text with ⟨response, next⟩
      cases response <;> rfl

/-- **What is said over a stream is said over a terminal**, line by line; the line of the last
prompt is ended besides. -/
theorem converse_streamLines (session : Session) (typed : List UInt8) :
    converse session (streamLines typed) = (dialogue session typed).endLine := by
  induction hlen : typed.length using Nat.strongRecOn generalizing session typed with
  | _ n ih =>
    rw [streamLines_eq]
    rcases hnext : nextLine? typed with _ | ⟨line, rest⟩
    · rw [dialogue_of_none hnext]
      rfl
    · rw [dialogue_of_some hnext]
      dsimp only
      rcases textOf? (withoutEnd line) with _ | text
      · rfl
      · have hshorter : rest.length < n := hlen ▸ length_lt_of_nextLine? hnext
        rw [converse]
        dsimp only
        split
        · rfl
        · rw [Transcript.endLine_after, ih rest.length hshorter _ rest rfl]

/-! ### Whole conversations -/

/-- Lines that are texts are not refused. -/
theorem ending_ne_invalidText {lines : List (Option String)} :
    ∀ session, (∀ line ∈ lines, ∃ text, line = some text) →
      (converse session lines).ending ≠ .invalidText := by
  induction lines with
  | nil => intro session _ h; cases h
  | cons line lines ih =>
    intro session h
    obtain ⟨⟨text, rfl⟩, hlines⟩ := List.forall_mem_cons.mp h
    rw [converse]
    dsimp only
    split
    · intro hending; cases hending
    · exact ih _ hlines

/-- A conversation over a stream ends the line of its last prompt, and one over a terminal does
not. -/
theorem overStream_eq_endLine (session : Session) (greet : Bool) (input : List UInt8) :
    overStream session greet input = (overTerminal session greet input).endLine := by
  rw [overStream, converse_streamLines, overTerminal, Transcript.endLine, Transcript.endLine]
  dsimp only
  rw [String.append_assoc]

end Console

namespace CommandLine

/-- **A terminal and a stream are answered alike.**  Over the same text, whatever the session and
with or without a greeting, the answers are the same, with the same stacks after them, and the
conversation ends for the same reason and without a failure.  It ends with the text exactly when no
line asks to stop.  What is written is the same too, but for one more line feed over a stream that
has been used up. -/
theorem hold_terminal_stream (session : Session) (greet : Bool) (text : String) :
    let input := text.toUTF8.data.toList
    let typed := hold session true greet input
    let piped := hold session false greet input
    typed.exchanges = piped.exchanges ∧ typed.session = piped.session ∧
      typed.ending = piped.ending ∧
      (piped.ending = .exhausted ↔ ∀ line ∈ Console.streamLines input, Console.GoesOn line) ∧
      Outcome.ofTranscript true typed = ⟨0, typed.output, ""⟩ ∧
      Outcome.ofTranscript false piped =
        ⟨0, typed.output ++ (if piped.ending = .exhausted then "\n" else ""), ""⟩ := by
  intro input typed piped
  have hexhausted : piped.ending = .exhausted ↔
      ∀ line ∈ Console.streamLines input, Console.GoesOn line :=
    Console.ending_converse_eq_exhausted_iff session
  have hpiped : piped = typed.endLine := Console.overStream_eq_endLine session greet input
  have hending : typed.ending ≠ .invalidText := by
    have hlines : (Console.converse session (Console.streamLines input)).ending ≠ .invalidText :=
      Console.ending_ne_invalidText session fun _ => Console.exists_text_of_mem_streamLines
    rwa [Console.converse_streamLines] at hlines
  rw [hpiped] at hexhausted ⊢
  exact ⟨rfl, rfl, rfl, hexhausted, if_neg hending, if_neg hending⟩

/-- A line that asks to stop, and a text that ends within a line. -/
theorem hold_terminal_stream_thirteen :
    let session := Session.ofConfig {}
    let stopped := "5 8 +\nq\n7".toUTF8.data.toList
    let usedUp := "5 8 +\r\n3".toUTF8.data.toList
    (Outcome.ofTranscript true (hold session true false stopped) =
        ⟨0, "> 13\nExpression courante : 13\n> ", ""⟩ ∧
      Outcome.ofTranscript false (hold session false false stopped) =
        ⟨0, "> 13\nExpression courante : 13\n> ", ""⟩) ∧
    (hold session true false usedUp).exchanges =
        [⟨.result "13", ["13"]⟩, ⟨.number "3", ["13", "3"]⟩] ∧
      Outcome.ofTranscript false (hold session false false usedUp) =
        ⟨0, (hold session true false usedUp).output ++ "\n", ""⟩ := by
  intro session stopped usedUp
  obtain ⟨-, -, -, -, htyped, hpiped⟩ := hold_terminal_stream session false "5 8 +\nq\n7"
  obtain ⟨hexchanges, -, -, -, -, hlast⟩ := hold_terminal_stream session false "5 8 +\r\n3"
  have hstopped : (hold session false false stopped).ending ≠ .exhausted := by decide +kernel
  have husedUp : (hold session false false usedUp).ending = .exhausted := by decide +kernel
  have hanswers : (hold session false false usedUp).exchanges =
      [⟨.result "13", ["13"]⟩, ⟨.number "3", ["13", "3"]⟩] := by decide +kernel
  have houtput : Outcome.ofTranscript false (hold session false false stopped) =
      ⟨0, "> 13\nExpression courante : 13\n> ", ""⟩ := by decide +kernel
  rw [if_neg hstopped, String.append_empty] at hpiped
  rw [if_pos husedUp] at hlast
  exact ⟨⟨htyped.trans (hpiped.symm.trans houtput), houtput⟩, hexchanges.trans hanswers, hlast⟩

end CommandLine
end PostfixCalculator
