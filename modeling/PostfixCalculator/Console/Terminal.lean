import PostfixCalculator.Console.Lines
import PostfixCalculator.Console.Transcript

/-!
# Conversations over a terminal

The lines are typed, and each one is taken when it is asked for.  At the end of the input nothing
more is written.

## Main definitions

* `Turn`, `turn?` — what one typed line comes to.
* `dialogue` — the conversation over what is typed, turn by turn.
* `overTerminal` — the same with its greeting.
-/

namespace PostfixCalculator.Console

/-! ### One line -/

/-- What a typed line comes to. -/
structure Turn where
  /-- What is written behind the prompt. -/
  output : String
  /-- The answer, and the stack after it. -/
  exchange : Exchange
  /-- The session that the line leaves. -/
  session : Session
  /-- Whether another line is asked for. -/
  goesOn : Bool

/-- The turn of a session on a text.  One that asks to stop is not answered in writing. -/
def Turn.ofText (session : Session) (text : String) : Turn :=
  match session.submit text with
  | (.quit, next) => ⟨"", ⟨.quit, next.stack⟩, next, false⟩
  | (response, next) => ⟨unlines (next.report response), ⟨response, next.stack⟩, next, true⟩

/-- The turn of a session on a line that is typed, its end included; `none` where it is no text. -/
def turn? (session : Session) (line : List UInt8) : Option Turn :=
  (textOf? (withoutEnd line)).map (Turn.ofText session)

/-! ### Whole conversations -/

/-- The conversation of a session over the bytes that are typed. -/
def dialogue (session : Session) (typed : List UInt8) : Transcript :=
  match _h : nextLine? typed with
  | none => .stop prompt session .exhausted
  | some (line, rest) =>
    match turn? session line with
    | none => .stop prompt session .invalidText
    | some turn =>
      .after (prompt ++ turn.output) turn.exchange
        (if turn.goesOn then dialogue turn.session rest else .stop "" turn.session .quit)
termination_by typed.length
decreasing_by exact length_lt_of_nextLine? _h

/-- The conversation of a session over a terminal. -/
def overTerminal (session : Session) (greet : Bool) (typed : List UInt8) : Transcript :=
  let spoken := dialogue session typed
  { spoken with output := greeting greet ++ spoken.output }

end PostfixCalculator.Console
