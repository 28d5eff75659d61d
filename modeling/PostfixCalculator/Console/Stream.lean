import PostfixCalculator.Console.Lines
import PostfixCalculator.Console.Transcript

/-!
# Conversations over a stream

The lines come from a stream that nobody types at.  When they are used up, the line of the last
prompt is ended.

## Main definitions

* `converse` — the conversation over the lines of a stream.
* `overStream` — the conversation over the bytes of a stream, with its greeting.
-/

namespace PostfixCalculator.Console

/-- The conversation of a session over lines, a line being `none` where its bytes are no text. -/
def converse (session : Session) : List (Option String) → Transcript
  | [] => .stop (prompt ++ "\n") session .exhausted
  | none :: _ => .stop prompt session .invalidText
  | some line :: lines =>
    let (response, next) := session.submit line
    if response = .quit then .after prompt ⟨response, next.stack⟩ (.stop "" next .quit)
    else
      .after (prompt ++ unlines (next.report response)) ⟨response, next.stack⟩
        (converse next lines)

/-- The conversation of a session over the bytes of a stream. -/
def overStream (session : Session) (greet : Bool) (bytes : List UInt8) : Transcript :=
  let spoken := converse session (streamLines bytes)
  { spoken with output := greeting greet ++ spoken.output }

end PostfixCalculator.Console
