import PostfixCalculator.Config
import PostfixCalculator.Numeral

/-!
# Command-line options

The arguments are read from left to right, and the first one that is wrong or asks for something
other than a session settles the matter.

* `-p N`, `--precision N` — the least number of places, by default from `RPN_PRECISION`.
* `-b B`, `--backend B` — the way of computing, by default from `RPN_BACKEND`.
* `--operateurs SET` — the operators that are enabled.
* `-q`, `--quiet` — no greeting.
* `-V`, `--version`, `-h`, `--help`.

A value follows its option as the next argument, after `=`, or right after the letter of a short
option.  Letters of short options may be run together, and each option is given once at most.

## Main definitions

* `Options` — what the arguments and the environment ask for.
* `Request` — a session with options, or one of the answers that need none.
* `Request.ofArguments` — the request that arguments and environment make.
-/

namespace PostfixCalculator.CommandLine

/-- What a session is started with. -/
structure Options where
  /-- The least number of places that results keep. -/
  precision : Nat := defaultPrecision
  /-- The way of computing. -/
  backend : Backend := .exact
  /-- The operators to enable, not yet read. -/
  operators : String := "+-*/"
  /-- No greeting is wanted. -/
  quiet : Bool := false
  deriving DecidableEq, Repr

/-- What the program is asked to do. -/
inductive Request
  /-- To hold a session. -/
  | session (options : Options)
  /-- To name its version. -/
  | version
  /-- To explain its options. -/
  | help
  /-- Nothing that it understands. -/
  | misuse
  deriving DecidableEq, Repr

/-- The environment variables that are looked at. -/
structure Environment where
  /-- The value of `RPN_PRECISION`. -/
  precision : Option String := none
  /-- The value of `RPN_BACKEND`. -/
  backend : Option String := none
  deriving DecidableEq, Repr

/-! ### Values -/

/-- The largest number of a word of 64 bits. -/
def maxWord : Nat := UInt64.size - 1

/-- The number of places that a text asks for: digits, after an optional plus sign, of a number
that fits in a word. -/
def parsePrecision? (text : String) : Option Nat :=
  let digits :=
    match text.toList with
    | '+' :: cs => cs
    | cs => cs
  let places := Numeral.value (Numeral.ofText digits)
  if digits ≠ [] && digits.all Char.isDigit && places ≤ maxWord then some places else none

/-- An option that takes a value. -/
inductive Setting
  | precision
  | backend
  | operators
  deriving DecidableEq, Repr

/-- What the arguments read so far have given. -/
structure Given where
  /-- The least number of places. -/
  precision : Option Nat := none
  /-- The way of computing. -/
  backend : Option Backend := none
  /-- The operators to enable. -/
  operators : Option String := none
  /-- Whether the greeting has been declined. -/
  quiet : Bool := false
  deriving DecidableEq, Repr

/-- Gives an option its value; `none` when it has one already or the value cannot be read. -/
def Given.assign (given : Given) (setting : Setting) (value : String) : Option Given :=
  match setting with
  | .precision =>
    if given.precision.isSome then none
    else (parsePrecision? value).map fun places => { given with precision := some places }
  | .backend =>
    if given.backend.isSome then none
    else (Backend.parse value).toOption.map fun backend => { given with backend := some backend }
  | .operators =>
    if given.operators.isSome then none else some { given with operators := some value }

/-- Declines the greeting; `none` when that has been done already. -/
def Given.hush (given : Given) : Option Given :=
  if given.quiet then none else some { given with quiet := true }

/-! ### Arguments -/

/-- What reading an argument comes to. -/
inductive Reading
  /-- The argument is complete. -/
  | complete (given : Given)
  /-- The argument is an option whose value is the next argument. -/
  | awaiting (given : Given) (setting : Setting)
  /-- The argument settles what is asked for. -/
  | settled (request : Request)
  deriving DecidableEq, Repr

/-- The reading after a step that may fail. -/
def Reading.ofOption : Option Given → Reading
  | some given => complete given
  | none => settled .misuse

/-- Reads the letters of short options that are run together. -/
def readLetters (given : Given) : List Char → Reading
  | [] => .complete given
  | 'q' :: cs =>
    match given.hush with
    | some given => readLetters given cs
    | none => .settled .misuse
  | 'V' :: _ => .settled .version
  | 'h' :: _ => .settled .help
  | 'p' :: cs => readAttached given .precision cs
  | 'b' :: cs => readAttached given .backend cs
  | _ :: _ => .settled .misuse
where
  /-- Reads what follows the letter of an option that takes a value. -/
  readAttached (given : Given) (setting : Setting) : List Char → Reading
    | [] => .awaiting given setting
    | '=' :: value => .ofOption (given.assign setting (String.ofList value))
    | value => .ofOption (given.assign setting (String.ofList value))

/-- The option with the given long name that takes a value. -/
def Setting.ofName? : String → Option Setting
  | "precision" => some precision
  | "backend" => some backend
  | "operateurs" => some operators
  | _ => none

/-- Reads a long option, with the value that follows its name after `=`, if one does. -/
def readLong (given : Given) (name : String) (value : Option String) : Reading :=
  match Setting.ofName? name, value with
  | some setting, some value => .ofOption (given.assign setting value)
  | some setting, none => .awaiting given setting
  | none, some _ => .settled .misuse
  | none, none =>
    if name = "quiet" then .ofOption given.hush
    else if name = "version" then .settled .version
    else if name = "help" then .settled .help
    else .settled .misuse

/-- Reads an argument where an option is expected. -/
def readArgument (given : Given) (argument : String) : Reading :=
  match argument.toList with
  | '-' :: '-' :: cs =>
    let name := String.ofList (cs.takeWhile (· ≠ '='))
    match cs.dropWhile (· ≠ '=') with
    | [] => readLong given name none
    | _ :: value => readLong given name (some (String.ofList value))
  | '-' :: c :: cs => readLetters given (c :: cs)
  | _ => .settled .misuse

/-- Whether an argument cannot be the value of the option before it. -/
def looksLikeOption (argument : String) : Bool :=
  match argument.toList with
  | '-' :: _ :: _ => true
  | _ => false

/-- Reads the arguments, the first of which is the value of the option awaited, if one is.  After
`--` no argument may follow. -/
def readArguments (given : Given) (awaited : Option Setting) :
    List String → Except Request Given
  | [] => if awaited.isSome then .error .misuse else .ok given
  | argument :: arguments =>
    match awaited with
    | some setting =>
      if looksLikeOption argument then .error .misuse
      else
        match given.assign setting argument with
        | some given => readArguments given none arguments
        | none => .error .misuse
    | none =>
      if argument = "--" then if arguments = [] then .ok given else .error .misuse
      else
        match readArgument given argument with
        | .complete given => readArguments given none arguments
        | .awaiting given setting => readArguments given (some setting) arguments
        | .settled request => .error request

/-- Gives an option the value of an environment variable, where the arguments have given none. -/
def Given.assignDefault (given : Given) (setting : Setting) (isGiven : Bool)
    (fallback : Option String) : Option Given :=
  match fallback with
  | some value => if isGiven then some given else given.assign setting value
  | none => some given

/-- What is asked for by the arguments and, where they are silent, by the environment. -/
def Given.complete (given : Given) (environment : Environment) : Option Options := do
  let given ← given.assignDefault .precision given.precision.isSome environment.precision
  let given ← given.assignDefault .backend given.backend.isSome environment.backend
  return {
    precision := given.precision.getD defaultPrecision
    backend := given.backend.getD .exact
    operators := given.operators.getD "+-*/"
    quiet := given.quiet }

/-- The request that the arguments and the environment make. -/
def Request.ofArguments (environment : Environment) (arguments : List String) : Request :=
  match readArguments {} none arguments with
  | .error request => request
  | .ok given =>
    match given.complete environment with
    | some options => .session options
    | none => .misuse

end PostfixCalculator.CommandLine
