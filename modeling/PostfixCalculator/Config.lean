import PostfixCalculator.Operator
import PostfixCalculator.Text.Case

/-!
# Configuration

What is chosen once, before a session starts: how results are computed, how many places they keep
at least, and which operators are enabled.

## Main definitions

* `Backend` — the two ways of computing, with their names.
* `Config` — a configuration; its default has every operator and fourteen places.
* `ConfigError` — the causes for which a configuration is refused.
* `Config.validate` — a configuration that is within bounds, or the cause why it is not.
* `parseOperators` — the operators that a text lists.
-/

namespace PostfixCalculator

/-- The least number of places kept, where nothing else is chosen. -/
def defaultPrecision : Nat := 14

/-- The largest least number of places that may be chosen. -/
def maxPrecision : Nat := 1000

/-- A way of computing. -/
inductive Backend
  /-- Rational numbers, cut to a number of decimal places. -/
  | exact
  /-- Binary floating-point numbers, cut to a number of decimal places. -/
  | binary
  deriving DecidableEq, Repr, Inhabited

/-- The causes for which a configuration is refused. -/
inductive ConfigError
  /-- The least number of places is above `maxPrecision`. -/
  | precisionTooLarge (places : Nat)
  /-- A character that is neither blank nor an operator. -/
  | unknownOperator (symbol : Char)
  /-- No operator is enabled. -/
  | noOperator
  /-- The name, in lower case, of no backend. -/
  | unknownBackend (name : String)
  deriving DecidableEq, Repr

/-- The text that reports a cause. -/
def ConfigError.message : ConfigError → String
  | precisionTooLarge places => s!"précision trop grande : {places} (max {maxPrecision})"
  | unknownOperator symbol => s!"opérateur inconnu : '{symbol}' (attendus : + - * /)"
  | noOperator => "aucun opérateur autorisé"
  | unknownBackend name => s!"backend inconnu : '{name}' (attendus : exact, flottant)"

namespace Backend

/-- The name of a backend. -/
def name : Backend → String
  | exact => "exact"
  | binary => "flottant"

/-- The backend with the given name, in any case and with blanks around it.  Each backend has
further names besides its own. -/
def parse (text : String) : Except ConfigError Backend :=
  let name := Text.lowercase (Text.trim text)
  if name = "exact" ∨ name = "decimal" then .ok exact
  else if name = "flottant" ∨ name = "float" ∨ name = "f64" then .ok binary
  else .error (.unknownBackend name)

end Backend

/-- A configuration. -/
structure Config where
  /-- The least number of places that results keep. -/
  precision : Nat := defaultPrecision
  /-- The operators that are enabled. -/
  operators : List Operator := Operator.all
  /-- The way of computing. -/
  backend : Backend := .exact
  deriving DecidableEq, Repr, Inhabited

/-- A configuration is refused when it asks for too many places, and then when it enables no
operator. -/
def Config.validate (config : Config) : Except ConfigError Config :=
  if maxPrecision < config.precision then .error (.precisionTooLarge config.precision)
  else if config.operators = [] then .error .noOperator
  else .ok config

/-! ### Lists of operators -/

/-- The operators listed by `cs` after the operators `ops`: blanks are passed over, an operator
listed before is not listed again, and any other character is refused. -/
def readOperators (ops : List Operator) : List Char → Except ConfigError (List Operator)
  | [] => .ok ops
  | c :: cs =>
    if Text.isBlank c then readOperators ops cs
    else
      match Operator.ofSymbol? (String.singleton c) with
      | none => .error (.unknownOperator c)
      | some op => readOperators (if op ∈ ops then ops else ops ++ [op]) cs

/-- The operators that a text lists, each one once, in the order of their first mention. -/
def parseOperators (text : String) : Except ConfigError (List Operator) :=
  match readOperators [] text.toList with
  | .error e => .error e
  | .ok [] => .error .noOperator
  | .ok ops => .ok ops

end PostfixCalculator
