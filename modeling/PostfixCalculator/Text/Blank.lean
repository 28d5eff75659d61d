/-!
# Blank characters, words and trimming

A line is a sequence of words separated by blanks.  A blank is any character with the Unicode
property *White_Space*, so a no-break space or an ideographic space divides words as well as a
plain one does.

## Main definitions

* `isBlank c` — the character `c` is a blank.
* `words s` — the maximal blank-free pieces of `s`, in order.
* `joinWords ws` — the words `ws` with one space between neighbours.
* `trim s` — `s` without the blanks at its two ends.

## Main results

* `split_append_blank` — cutting a line at a blank cuts its list of words.
-/

namespace PostfixCalculator.Text

/-- The runs of code points with the property *White_Space*. -/
def blankRuns : List (Nat × Nat) :=
  [(0x9, 0xD), (0x20, 0x20), (0x85, 0x85), (0xA0, 0xA0), (0x1680, 0x1680), (0x2000, 0x200A),
   (0x2028, 0x2029), (0x202F, 0x202F), (0x205F, 0x205F), (0x3000, 0x3000)]

/-- Whether the code point of `c` lies in one of the given runs. -/
def inRuns (runs : List (Nat × Nat)) (c : Char) : Bool :=
  runs.any fun run => run.1 ≤ c.toNat && c.toNat ≤ run.2

/-- Whether `c` is a blank. -/
def isBlank (c : Char) : Bool := inRuns blankRuns c

/-! ### Words -/

/-- Puts the word under construction, if it has begun, in front of the finished ones. -/
def flush (state : List Char × List (List Char)) : List (List Char) :=
  if state.1.isEmpty then state.2 else state.1 :: state.2

/-- Reads one more character to the left: a blank ends the word under construction, any other
character extends it. -/
def gather (c : Char) (state : List Char × List (List Char)) : List Char × List (List Char) :=
  if isBlank c then ([], flush state) else (c :: state.1, state.2)

/-- The maximal blank-free pieces of a text. -/
def split (cs : List Char) : List (List Char) := flush (cs.foldr gather ([], []))

/-- The words of a line. -/
def words (line : String) : List String := (split line.toList).map String.ofList

/-- Words written in a row, one space between neighbours. -/
def joinWords (ws : List String) : String := " ".intercalate ws

@[simp] theorem split_nil : split [] = [] := rfl

/-- A blank ends the word before it: nothing to its right joins the words to its left. -/
theorem split_append_blank {b : Char} (hb : isBlank b) (left right : List Char) :
    split (left ++ b :: right) = split left ++ split right := by
  have key : ∀ left : List Char, (left ++ b :: right).foldr gather ([], [])
      = ((left.foldr gather ([], [])).1, (left.foldr gather ([], [])).2 ++ split right) := by
    intro left
    induction left with
    | nil => simp [gather, hb, split]
    | cons c left ih =>
      rw [List.cons_append, List.foldr_cons, ih, List.foldr_cons]
      by_cases hc : isBlank c
      · by_cases hw : (left.foldr gather ([], [])).1.isEmpty <;> simp [gather, flush, hc, hw]
      · simp [gather, hc]
  show flush ((left ++ b :: right).foldr gather ([], [])) =
    flush (left.foldr gather ([], [])) ++ split right
  rw [key left]
  by_cases hw : (left.foldr gather ([], [])).1.isEmpty <;> simp only [flush, hw] <;> simp

/-! ### Trimming -/

/-- A text without the blanks at its two ends. -/
def trim (text : String) : String :=
  String.ofList ((text.toList.dropWhile isBlank).reverse.dropWhile isBlank).reverse

end PostfixCalculator.Text
