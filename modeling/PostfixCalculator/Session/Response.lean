import PostfixCalculator.Token

/-!
# Responses

What a session answers to a line, and how the answer is shown.

## Main definitions

* `Response` — the possible answers.
* `Response.lines` — the lines that show an answer.
-/

namespace PostfixCalculator

/-- The answer to a line. -/
inductive Response
  /-- The line asked to stop. -/
  | quit
  /-- The line cannot stand after what is stacked; nothing has changed. -/
  | invalidEntry
  /-- The line was a single number, which has been pushed as it was written. -/
  | number (text : String)
  /-- The line has been carried out; the topmost number is now `text`. -/
  | result (text : String)
  /-- The line divided by zero; the stack has been emptied. -/
  | divisionByZero
  /-- The line holds an operator without two operands; nothing has changed. -/
  | missingOperands
  deriving DecidableEq, Repr

/-- The lines that show an answer, where the given operators are enabled. -/
def Response.lines (ops : List Operator) : Response → List String
  | quit => []
  | number text => [text]
  | result text => [text]
  | invalidEntry =>
    let listed := Operator.listText ops
    ["Entrée invalide.",
     s!"Nombres acceptés : 5, -2.98, .7, 1.678e+32 ; opérateurs : {listed}",
     "Une expression commence par deux nombres, séparés par des espaces.",
     "Ligne vide ou « q » pour quitter."]
  | divisionByZero => ["Erreur : division par zéro.", "La pile a été vidée, recommencez."]
  | missingOperands => ["Trop d’opérations, pas assez d’opérandes.", "La ligne est ignorée."]

end PostfixCalculator
