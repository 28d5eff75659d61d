import PostfixCalculator.Literal.Lemmas
import PostfixCalculator.Proofs.Token

/-!
# Words in a row

A word has a character, and none of its characters is blank.  Words written in a row, with one space
between neighbours, are read back one by one.  Every number is a word, since its characters are
digits and a few marks.

## Main definitions

* `IsWord word` — the text is a single word.

## Main results

* `words_joined` — two lines in a row have the words of both.
* `words_joinWords` — **words in a row are read back.**
* `Literal.forall_mem_chars` — the characters of a literal.
* `isWord_of_numeric` — every number is a word.
-/

namespace PostfixCalculator

namespace Text

/-- A text with a character and without blanks. -/
def IsWord (word : String) : Prop := word ≠ "" ∧ ∀ c ∈ word.toList, isBlank c = false

/-- Two lines in a row have the words of both. -/
theorem words_joined (line line' : String) :
    words (line ++ " " ++ line') = words line ++ words line' := by
  have hchars : (line ++ " " ++ line').toList = line.toList ++ ' ' :: line'.toList := by simp
  rw [words, hchars, split_append_blank (by decide), List.map_append]
  rfl

/-- Characters that are not blank all belong to the word under construction. -/
theorem foldr_gather_of_not_blank {cs : List Char} (h : ∀ c ∈ cs, isBlank c = false) :
    cs.foldr gather ([], []) = (cs, []) := by
  induction cs with
  | nil => rfl
  | cons c cs ih =>
    obtain ⟨hc, hcs⟩ := List.forall_mem_cons.mp h
    rw [List.foldr_cons, ih hcs, gather, if_neg (Bool.eq_false_iff.mp hc)]

/-- A word is its own only word. -/
theorem words_of_isWord {word : String} (h : IsWord word) : words word = [word] := by
  have hne : word.toList ≠ [] := fun hnil => h.1 (String.toList_eq_nil_iff.mp hnil)
  have hsplit : split word.toList = [word.toList] := by
    rw [split, foldr_gather_of_not_blank h.2, flush,
      if_neg (fun hempty => hne (List.isEmpty_iff.mp hempty))]
  rw [words, hsplit, List.map_singleton, String.ofList_toList]

/-- **Words in a row are read back one by one.** -/
theorem words_joinWords : ∀ ws : List String, (∀ w ∈ ws, IsWord w) → words (joinWords ws) = ws := by
  intro ws
  induction ws with
  | nil => intro _; rfl
  | cons w ws ih =>
    intro h
    obtain ⟨hw, hws⟩ := List.forall_mem_cons.mp h
    cases ws with
    | nil => rw [joinWords, String.intercalate_singleton, words_of_isWord hw]
    | cons w' ws =>
      rw [joinWords, String.intercalate_cons_cons, words_joined, words_of_isWord hw]
      exact congrArg (w :: ·) (ih hws)

end Text

/-! ### Numbers are words -/

/-- The characters of a literal are digits and the five marks. -/
theorem Literal.forall_mem_chars {p : Char → Prop} (hdigit : ∀ d : Digit, p (Digit.toChar d))
    (hmark : ∀ c ∈ ['-', '+', '.', 'e', 'E'], p c) (n : Literal) : ∀ c ∈ n.chars, p c := by
  have htext : ∀ ds, ∀ c ∈ Numeral.text ds, p c := by
    intro ds c hc
    obtain ⟨d, -, rfl⟩ := List.mem_map.mp hc
    exact hdigit d
  have hminus : ∀ c ∈ minusChars n.negative, p c := by
    cases n.negative
    · simp [minusChars]
    · simpa [minusChars] using hmark '-' (by decide)
  have hfraction : ∀ c ∈ fractionChars n.fraction, p c := by
    cases n.fraction with
    | none => simp [fractionChars]
    | some ds => exact List.forall_mem_cons.mpr ⟨hmark '.' (by decide), htext ds⟩
  have hexponent : ∀ c ∈ (n.exponent.map Exponent.chars).getD [], p c := by
    cases n.exponent with
    | none => simp
    | some e =>
      refine List.forall_mem_cons.mpr ⟨?_, List.forall_mem_append.mpr ⟨?_, htext e.digits⟩⟩
      · cases e.capital
        · exact hmark 'e' (by decide)
        · exact hmark 'E' (by decide)
      · rcases e.sign with _ | (_ | _)
        · simp [Exponent.signChars]
        · simpa [Exponent.signChars] using hmark '+' (by decide)
        · simpa [Exponent.signChars] using hmark '-' (by decide)
  simp only [chars, List.forall_mem_append]
  exact ⟨⟨⟨hminus, htext n.integer⟩, hfraction⟩, hexponent⟩

/-- Every number is a word. -/
theorem isWord_of_numeric {word : String} (h : isNumeric word = true) : Text.IsWord word := by
  obtain ⟨n, hn⟩ := isNumeric_iff.mp h
  constructor
  · rintro rfl
    exact absurd h (by decide)
  · rw [Literal.parse?_eq_some_iff.mp hn, Literal.text, String.toList_ofList]
    refine Literal.forall_mem_chars (by decide) ?_ n
    simp only [List.mem_cons, List.not_mem_nil, or_false, forall_eq_or_imp, forall_eq]
    decide

end PostfixCalculator
