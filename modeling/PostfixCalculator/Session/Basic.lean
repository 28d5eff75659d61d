import PostfixCalculator.Entry
import PostfixCalculator.Reduction
import PostfixCalculator.Session.Response

/-!
# Sessions

A session keeps a stack of numbers from line to line.  The words of a line are put after the stack
and the whole is reduced; the stack changes only when the reduction leaves numbers alone, or when a
division by zero empties it.

## Main definitions

* `Session` — an engine and a stack.
* `Session.submit` — the answer to a line, and the session after it.
* `Session.clear` — the session with an empty stack.
* `Session.expression?` — the stack as a line.
* `Session.report` — the lines shown after an answer.
* `Command`, `Session.perform` — a call on a session, and a row of calls.
-/

namespace PostfixCalculator

/-- The state of a conversation with the calculator. -/
structure Session where
  /-- What carries out the operations. -/
  engine : Engine
  /-- The numbers stacked, from the bottom up. -/
  stack : List String
  deriving DecidableEq

namespace Session

/-- The session of a configuration, with nothing stacked. -/
def ofConfig (config : Config) : Session := ⟨Engine.ofConfig config, []⟩

/-- The session with its stack emptied. -/
def clear (session : Session) : Session := { session with stack := [] }

/-- Whether the words of a line ask to stop: there are none, or the single word `q`. -/
def asksToQuit (words : List String) : Bool := words = [] || words = ["q"]

/-- Whether the words of a line are a single number. -/
def isSingleNumber (words : List String) : Bool :=
  match words with
  | [word] => isNumeric word
  | _ => false

/-- The answer to the reduction of a candidate stack, and the session after it. -/
def settle (session : Session) : Except CalcError (List String) → Response × Session
  | .error .divisionByZero => (.divisionByZero, session.clear)
  | .error _ => (.missingOperands, session)
  | .ok reduced =>
    if reduced.all isNumeric then
      (.result (reduced.getLast?.getD ""), { session with stack := reduced })
    else (.missingOperands, session)

/-- The answer to the words of a line, and the session after it. -/
def submitWords (session : Session) (words : List String) : Response × Session :=
  let candidate := session.stack ++ words
  if asksToQuit words then (.quit, session)
  else if !isAcceptable session.engine.operators candidate then (.invalidEntry, session)
  else if isSingleNumber words then
    (.number (words.head?.getD ""), { session with stack := candidate })
  else settle session (reduce session.engine candidate)

/-- The answer to a line, and the session after it. -/
def submit (session : Session) (line : String) : Response × Session :=
  session.submitWords (Text.words line)

/-- The stack as a line, if there is anything on it. -/
def expression? (session : Session) : Option String :=
  if session.stack = [] then none else some (Text.joinWords session.stack)

/-- The lines shown after an answer: the answer, then the stack. -/
def report (session : Session) (response : Response) : List String :=
  response.lines session.engine.operators ++
    match session.expression? with
    | some expression => [s!"Expression courante : {expression}"]
    | none => []

end Session

/-! ### Histories -/

/-- A call on a session. -/
inductive Command
  /-- A line is entered. -/
  | line (text : String)
  /-- The stack is emptied. -/
  | clear
  deriving DecidableEq, Repr

namespace Session

/-- The session after a call. -/
def step (session : Session) : Command → Session
  | .line text => (session.submit text).2
  | .clear => session.clear

/-- The session after a row of calls. -/
def perform (session : Session) (commands : List Command) : Session := commands.foldl step session

end Session

end PostfixCalculator
