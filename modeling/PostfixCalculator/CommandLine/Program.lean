import PostfixCalculator.CommandLine.Options
import PostfixCalculator.Console.Stream
import PostfixCalculator.Console.Terminal

/-!
# The program

The whole run of the program as a function of its arguments, its environment and its input.

## Main definitions

* `StartError` — the causes for which no session is started.
* `Options.start` — the session that options ask for.
* `Outcome` — the exit code and what is written.
* `Manual` — the texts about the options.
* `run` — the outcome of a run.
-/

namespace PostfixCalculator.CommandLine

/-- The causes for which no session is started. -/
inductive StartError
  /-- The operators to enable cannot be read. -/
  | operators (cause : ConfigError)
  /-- The configuration is out of bounds. -/
  | configuration (cause : ConfigError)
  deriving DecidableEq, Repr

/-- The session that options ask for.  The operators are read before the bounds are checked. -/
def Options.start (options : Options) : Except StartError Session :=
  match parseOperators options.operators with
  | .error cause => .error (.operators cause)
  | .ok ops =>
    match Config.validate ⟨options.precision, ops, options.backend⟩ with
    | .error cause => .error (.configuration cause)
    | .ok config => .ok (Session.ofConfig config)

/-! ### Reports of failures -/

/-- The causes of a failure one below the other, numbered where there are several. -/
def causeLines (causes : List String) : List String :=
  match causes with
  | [cause] => ["    " ++ cause]
  | _ => causes.zipIdx.map fun (cause, i) => s!"    {i}: {cause}"

/-- The report of what failed and of its causes. -/
def failureText (context : String) (causes : List String) : String :=
  Console.unlines (["Error: " ++ context, "", "Caused by:"] ++ causeLines causes)

/-- The report of a session that could not be started. -/
def StartError.text : StartError → String
  | operators cause => failureText "option --operateurs" [cause.message]
  | configuration cause => failureText "configuration invalide" [cause.message]

/-- The cause of a line that is no text. -/
def invalidTextCause : String := "stream did not contain valid UTF-8"

/-! ### Outcomes -/

/-- What a run leaves behind. -/
structure Outcome where
  /-- The exit code. -/
  code : UInt32
  /-- What is written to the standard output. -/
  output : String
  /-- What is written to the standard error. -/
  errors : String
  deriving DecidableEq, Repr

/-- The version of the program. -/
def versionText : String := "rpn 0.1.0\n"

/-- The texts about the options, which are left to the caller. -/
structure Manual where
  /-- What is written to the standard output where help is asked for. -/
  help : String := ""
  /-- What is written to the standard error where the arguments are not understood. -/
  misuse : String := ""

/-- The report of a conversation that a line which is no text has ended. -/
def invalidTextText (terminal : Bool) : String :=
  if terminal then failureText "lecture de ligne" [invalidTextCause, invalidTextCause]
  else failureText "entrée/sortie standard" [invalidTextCause]

/-- The outcome of a session that could not be started. -/
def Outcome.ofStartError (error : StartError) : Outcome := ⟨1, "", error.text⟩

/-- The outcome of a conversation that ended as given, for which `output` was written. -/
def Outcome.ofEnding (terminal : Bool) (ending : Console.Ending) (output : String) : Outcome :=
  if ending = .invalidText then ⟨1, output, invalidTextText terminal⟩ else ⟨0, output, ""⟩

/-- The outcome of a conversation. -/
def Outcome.ofTranscript (terminal : Bool) (transcript : Console.Transcript) : Outcome :=
  .ofEnding terminal transcript.ending transcript.output

/-- The conversation that a session holds over its input. -/
def hold (session : Session) (terminal greet : Bool) (input : List UInt8) : Console.Transcript :=
  if terminal then Console.overTerminal session greet input
  else Console.overStream session greet input

/-- The outcome of a run with the given options and input. -/
def runSession (options : Options) (terminal : Bool) (input : List UInt8) : Outcome :=
  match options.start with
  | .error error => .ofStartError error
  | .ok session => .ofTranscript terminal (hold session terminal (!options.quiet) input)

/-- The outcome of a run.  The input is a terminal or a stream. -/
def run (environment : Environment) (arguments : List String) (terminal : Bool)
    (input : List UInt8) (manual : Manual := {}) : Outcome :=
  match Request.ofArguments environment arguments with
  | .misuse => ⟨2, "", manual.misuse⟩
  | .version => ⟨0, versionText, ""⟩
  | .help => ⟨0, manual.help, ""⟩
  | .session options => runSession options terminal input

end PostfixCalculator.CommandLine
