import PostfixCalculator.Entry
import PostfixCalculator.Proofs.Token

/-!
# What an acceptable entry is made of

The test of an entry asks more of its first two words than of the others.  Lists of numbers pass
it, so does whatever an acceptable list begins with, and behind two words that have passed it only
the weaker test is left.

## Main results

* `isAcceptable_of_allNumeric` — lists of numbers are acceptable.
* `isAcceptable_append_iff` — the test of a list behind two words or more.
* `isNumberOrEnabled_of_isAcceptable` — the weaker test holds everywhere in an acceptable list.
* `mem_of_isAcceptable` — every operator of an acceptable list is enabled.
-/

namespace PostfixCalculator

variable {ops : List Operator} {words words' : List String}

theorem isNumberOrEnabled_of_numeric {word : String} (h : isNumeric word = true) :
    isNumberOrEnabled ops word = true := by
  obtain ⟨n, hn⟩ := isNumeric_iff.mp h
  rw [isNumberOrEnabled, ofWord_of_parse? hn]

theorem isNumberOrEnabled_symbol (ops : List Operator) (op : Operator) :
    isNumberOrEnabled ops op.symbol = true ↔ op ∈ ops := by
  rw [isNumberOrEnabled, ofWord_symbol, decide_eq_true_iff]

theorem isAcceptable_iff :
    isAcceptable ops words = true ↔ AllNumeric (words.take 2) ∧
      ∀ word ∈ words.drop 2, isNumberOrEnabled ops word = true := by
  rw [isAcceptable, Bool.and_eq_true, List.all_eq_true, List.all_eq_true]
  rfl

/-- Lists of numbers are acceptable. -/
theorem isAcceptable_of_allNumeric (h : AllNumeric words) : isAcceptable ops words = true :=
  isAcceptable_iff.mpr ⟨fun word hword => h word (List.mem_of_mem_take hword), fun word hword =>
    isNumberOrEnabled_of_numeric (h word (List.mem_of_mem_drop hword))⟩

/-- Every word of an acceptable list is a number or an enabled operator. -/
theorem isNumberOrEnabled_of_isAcceptable (h : isAcceptable ops words = true) :
    ∀ word ∈ words, isNumberOrEnabled ops word = true := by
  obtain ⟨htake, hdrop⟩ := isAcceptable_iff.mp h
  intro word hword
  rw [← List.take_append_drop 2 words, List.mem_append] at hword
  rcases hword with hword | hword
  · exact isNumberOrEnabled_of_numeric (htake word hword)
  · exact hdrop word hword

/-- Every operator of an acceptable list is enabled. -/
theorem mem_of_isAcceptable {op : Operator} (h : isAcceptable ops words = true)
    (hop : op.symbol ∈ words) : op ∈ ops :=
  (isNumberOrEnabled_symbol ops op).mp (isNumberOrEnabled_of_isAcceptable h _ hop)

/-- What an acceptable list begins with is acceptable. -/
theorem isAcceptable_of_append (h : isAcceptable ops (words ++ words') = true) :
    isAcceptable ops words = true := by
  obtain ⟨htake, hdrop⟩ := isAcceptable_iff.mp h
  rw [List.take_append] at htake
  rw [List.drop_append] at hdrop
  exact isAcceptable_iff.mpr ⟨(allNumeric_append.mp htake).1, fun word hword =>
    hdrop word (List.mem_append_left _ hword)⟩

/-- Behind two words or more, only the weaker test is left. -/
theorem isAcceptable_append_iff (hlen : 2 ≤ words.length) :
    isAcceptable ops (words ++ words') = true ↔ isAcceptable ops words = true ∧
      ∀ word ∈ words', isNumberOrEnabled ops word = true := by
  rw [isAcceptable_iff, isAcceptable_iff, List.take_append_of_le_length hlen,
    List.drop_append_of_le_length hlen, List.forall_mem_append, and_assoc]

/-- The first of the words that follow a list of numbers is acceptable if it is a number or finds
two of them before it. -/
theorem isAcceptable_append_of_allNumeric {word : String} (h : AllNumeric words)
    (hhead : isNumeric word = true ∨ 2 ≤ words.length)
    (hne : words ≠ [])
    (hall : ∀ w ∈ word :: words', isNumberOrEnabled ops w = true) :
    isAcceptable ops (words ++ word :: words') = true := by
  rcases hhead with hword | hlen
  · have hnumeric : AllNumeric (words ++ [word]) :=
      allNumeric_append.mpr ⟨h, allNumeric_cons.mpr ⟨hword, AllNumeric.nil⟩⟩
    have hlen : 2 ≤ (words ++ [word]).length := by
      have hpos := List.length_pos_iff.mpr hne
      rw [List.length_append, List.length_singleton]
      omega
    rw [List.append_cons, isAcceptable_append_iff hlen]
    exact ⟨isAcceptable_of_allNumeric hnumeric, fun w hw => hall w (List.mem_cons_of_mem word hw)⟩
  · exact (isAcceptable_append_iff hlen).mpr ⟨isAcceptable_of_allNumeric h, hall⟩

/-- The first word of an acceptable list is a number. -/
theorem isNumeric_of_isAcceptable_cons {word : String}
    (h : isAcceptable ops (word :: words) = true) : isNumeric word = true :=
  (isAcceptable_iff.mp h).1 word (by simp)

end PostfixCalculator
