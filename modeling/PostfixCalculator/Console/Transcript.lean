import PostfixCalculator.Session.Basic

/-!
# Transcripts

What a conversation over a console writes and leaves behind.

## Main definitions

* `Ending` — the reasons for which a conversation ends.
* `Exchange` — an answer and the stack after it.
* `Transcript` — the record of a conversation.
* `prompt`, `banner`, `unlines` — the fixed texts and the shape of what is written.
-/

namespace PostfixCalculator.Console

/-- The text that asks for a line. -/
def prompt : String := "> "

/-- The text that greets. -/
def banner : String :=
  "\n".intercalate [
    "Calculatrice RPN (notation polonaise inverse)",
    "Tapez des nombres et des opérateurs séparés par des espaces, ex. : 5 8 +",
    "Ligne vide ou « q » pour quitter."]

/-- Lines written one below the other, each with its end. -/
def unlines (lines : List String) : String := String.join (lines.map (· ++ "\n"))

/-- The greeting, where one is wanted. -/
def greeting (wanted : Bool) : String := if wanted then unlines [banner] else ""

/-- The reasons for which a conversation ends. -/
inductive Ending
  /-- There was no further line. -/
  | exhausted
  /-- A line asked to stop. -/
  | quit
  /-- A line was no text. -/
  | invalidText
  deriving DecidableEq, Repr

/-- An answer and the stack after it. -/
structure Exchange where
  /-- The answer to a line. -/
  response : Response
  /-- The stack after the answer. -/
  stack : List String
  deriving DecidableEq, Repr

/-- The record of a conversation. -/
structure Transcript where
  /-- All that was written. -/
  output : String
  /-- The answers given, in order. -/
  exchanges : List Exchange
  /-- The session left behind. -/
  session : Session
  /-- Why the conversation ended. -/
  ending : Ending
  deriving DecidableEq

/-- A conversation that ends at once, with `output` written. -/
def Transcript.stop (output : String) (session : Session) (ending : Ending) : Transcript :=
  ⟨output, [], session, ending⟩

/-- A conversation with an exchange put before it, for which `output` was written. -/
def Transcript.after (output : String) (exchange : Exchange) (later : Transcript) : Transcript :=
  { later with output := output ++ later.output, exchanges := exchange :: later.exchanges }

end PostfixCalculator.Console
