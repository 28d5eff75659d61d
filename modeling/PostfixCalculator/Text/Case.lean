import PostfixCalculator.Text.Blank
import PostfixCalculator.Text.CaseTable

/-!
# Lower case

The full lower-case form of a text.  Each character is mapped on its own, with two exceptions of
the standard: the capital I with a dot above becomes two characters, and a capital sigma that ends
a word becomes the final form of the letter.

## Main definitions

* `lowercaseChar c` — the lower-case form of `c` taken alone.
* `endsWord before after` — a letter between the two texts is the last one of its word.
* `lowercase s` — the lower-case form of the text `s`.
-/

namespace PostfixCalculator.Text

/-- Whether `c` is a letter of a script with case. -/
def isCased (c : Char) : Bool := inRuns casedRuns c

/-- Whether `c` is passed over when the neighbours of a letter are looked up. -/
def isCaseIgnorable (c : Char) : Bool := inRuns caseIgnorableRuns c

/-- The lower-case form of one character, where nothing depends on its neighbours. -/
def lowercaseChar (c : Char) : List Char :=
  if c = 'İ' then ['i', '\u0307']
  else
    match lowercaseRuns.find? fun (first, last, step, _) =>
        first ≤ c.toNat && c.toNat ≤ last && (c.toNat - first) % step == 0 with
    | some (_, _, _, shift) => [Char.ofNat (c.toNat + shift).toNat]
    | none => [c]

/-- Whether the nearest character that counts is a cased letter. -/
def startsCased (cs : List Char) : Bool :=
  (cs.dropWhile isCaseIgnorable).head?.any isCased

/-- Whether a letter after `before` (nearest character first) and before `after` ends a word: a
cased letter precedes it and none follows. -/
def endsWord (before after : List Char) : Bool :=
  startsCased before && !startsCased after

/-- The lower-case form of the text `cs` that follows `before`, the nearest character first;
`done` is what has been written so far, the last character first. -/
def lowercaseAfter (before : List Char) (done : List Char) : List Char → List Char
  | [] => done.reverse
  | c :: cs =>
    let form := if c = 'Σ' then [if endsWord before cs then 'ς' else 'σ'] else lowercaseChar c
    lowercaseAfter (c :: before) (form.reverse ++ done) cs

/-- The lower-case form of a text. -/
def lowercase (text : String) : String :=
  String.ofList (lowercaseAfter [] [] text.toList)

end PostfixCalculator.Text
