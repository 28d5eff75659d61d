import PostfixCalculator.CommandLine.Program

/-!
# The command `rpn`

Connects the program to its arguments, its environment and its standard streams.  From a stream the
whole input is read at once; at a terminal each line is answered before the next one is asked for.
-/

namespace PostfixCalculator.CommandLine

/-- All bytes that are left in a stream, after those of `done`. -/
partial def readRest (input : IO.FS.Stream) (done : ByteArray) : IO ByteArray := do
  let bytes ← input.read 65536
  if bytes.isEmpty then return done else readRest input (done ++ bytes)

/-- The bytes of the next line of a stream, its end included, after those of `done`. -/
partial def readLine (input : IO.FS.Stream) (done : ByteArray) : IO ByteArray := do
  let bytes ← input.read 1
  let line := done ++ bytes
  if bytes.isEmpty || bytes.data.contains Console.lineFeed then return line
  else readLine input line

/-- Asks for lines at a terminal, takes its turn on each one, and tells why it stops. -/
partial def attend (input output : IO.FS.Stream) (session : Session) : IO Console.Ending := do
  output.putStr Console.prompt
  output.flush
  let line ← readLine input ByteArray.empty
  if line.isEmpty then return .exhausted
  match Console.turn? session line.data.toList with
  | none => return .invalidText
  | some turn =>
    output.putStr turn.output
    if turn.goesOn then attend input output turn.session else return .quit

/-- The line that is written about the options. -/
def usage : String := "Usage: rpn [OPTIONS]\n"

/-- Writes an outcome and gives its exit code. -/
def finish (output : IO.FS.Stream) (outcome : Outcome) : IO UInt32 := do
  output.putStr outcome.output
  output.flush
  IO.eprint outcome.errors
  return outcome.code

/-- A session at a terminal. -/
def interact (options : Options) (input output : IO.FS.Stream) : IO UInt32 :=
  match options.start with
  | .error error => finish output (.ofStartError error)
  | .ok session => do
    output.putStr (Console.greeting (!options.quiet))
    let ending ← attend input output session
    finish output (.ofEnding true ending "")

end PostfixCalculator.CommandLine

open PostfixCalculator.CommandLine

/-- Runs the command. -/
def main (arguments : List String) : IO UInt32 := do
  let environment : Environment :=
    { precision := ← IO.getEnv "RPN_PRECISION", backend := ← IO.getEnv "RPN_BACKEND" }
  let input ← IO.getStdin
  let output ← IO.getStdout
  let terminal ← input.isTty
  match Request.ofArguments environment arguments, terminal with
  | .session options, true => interact options input output
  | .session _, false =>
    let bytes ← readRest input ByteArray.empty
    finish output (run environment arguments false bytes.data.toList)
  | _, _ => finish output (run environment arguments terminal [] ⟨usage, usage⟩)
