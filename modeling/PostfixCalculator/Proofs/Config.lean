import Mathlib
import PostfixCalculator.Config
import PostfixCalculator.Token

/-!
# Lists of operators

Blanks aside, a text lists operators when it has no other characters than theirs.  Each operator is
then listed once, where it is first mentioned.  Written in a row, the operators of such a list are
read as the same list again.

## Main definitions

* `Operator.mark` — the character that stands for an operator.
* `visible cs` — the characters among `cs` that are not blank.

## Main results

* `readOperators_of_stray`, `exists_readOperators` — what is read after some operators.
* `parseOperators_eq_ok_iff`, `parseOperators_eq_unknownOperator_iff`,
  `parseOperators_eq_noOperator_iff` — **which texts list operators**, and why the others do not.
* `parseOperators_listText` — a list that was read is read again from its text.
-/

namespace PostfixCalculator

/-! ### Operators and their characters -/

namespace Operator

/-- The character that stands for an operator. -/
def mark : Operator → Char
  | plus => '+'
  | minus => '-'
  | times => '*'
  | divide => '/'

/-- The characters that stand for operators. -/
def marks : List Char := ['+', '-', '*', '/']

theorem symbol_eq (op : Operator) : op.symbol = String.singleton op.mark := by cases op <;> decide

theorem mark_injective : Function.Injective mark := by
  intro op op'
  cases op <;> cases op' <;> decide

theorem mem_marks_iff {c : Char} : c ∈ marks ↔ ∃ op : Operator, op.mark = c := by
  constructor
  · intro h
    simp only [marks, List.mem_cons, List.not_mem_nil, or_false] at h
    rcases h with rfl | rfl | rfl | rfl
    exacts [⟨plus, rfl⟩, ⟨minus, rfl⟩, ⟨times, rfl⟩, ⟨divide, rfl⟩]
  · rintro ⟨op, rfl⟩
    cases op <;> decide

/-- A character is read as the operator that it stands for. -/
theorem ofSymbol?_mark (op : Operator) : ofSymbol? (String.singleton op.mark) = some op :=
  ofSymbol?_eq_some_iff.mpr op.symbol_eq.symm

/-- Another character is not read. -/
theorem ofSymbol?_of_notMem_marks {c : Char} (h : c ∉ marks) :
    ofSymbol? (String.singleton c) = none := by
  rw [Option.eq_none_iff_forall_ne_some]
  intro op hop
  have hmark : String.singleton c = String.singleton op.mark :=
    (ofSymbol?_eq_some_iff.mp hop).trans op.symbol_eq
  have hc := congrArg String.toList hmark
  rw [String.toList_singleton, String.toList_singleton, List.cons.injEq] at hc
  exact h (mem_marks_iff.mpr ⟨op, hc.1.symm⟩)

end Operator

/-! ### First mentions -/

/-- What is mentioned once more is listed already. -/
theorem eraseDups_concat (seen : List Char) (c : Char) :
    (seen ++ [c]).eraseDups = if c ∈ seen then seen.eraseDups else seen.eraseDups ++ [c] := by
  rw [List.eraseDups_append]
  by_cases hc : c ∈ seen <;> simp [List.removeAll, hc, List.eraseDups_cons]

theorem eraseDups_eraseDups (seen : List Char) : seen.eraseDups.eraseDups = seen.eraseDups := by
  induction seen using List.reverseRecOn with
  | nil => rfl
  | append_singleton seen c ih =>
    rw [eraseDups_concat]
    split
    · exact ih
    · next hc => rw [eraseDups_concat, ih, if_neg (mt List.mem_eraseDups.mp hc)]

theorem eraseDups_eq_nil_iff {seen : List Char} : seen.eraseDups = [] ↔ seen = [] := by
  cases seen with
  | nil => exact iff_of_true rfl rfl
  | cons c seen => simp [List.eraseDups_cons]

/-! ### Reading -/

/-- The characters that are not blank. -/
def visible (cs : List Char) : List Char := cs.filter fun c => !Text.isBlank c

theorem visible_append (cs ds : List Char) : visible (cs ++ ds) = visible cs ++ visible ds :=
  List.filter_append ..

theorem visible_cons_of_isBlank {c : Char} (hc : Text.isBlank c = true) (cs : List Char) :
    visible (c :: cs) = visible cs := List.filter_cons_of_neg (by simpa using hc)

theorem visible_cons_of_not_isBlank {c : Char} (hc : ¬Text.isBlank c = true) (cs : List Char) :
    visible (c :: cs) = c :: visible cs := List.filter_cons_of_pos (by simpa using hc)

/-- **The first character that is neither blank nor an operator is refused.** -/
theorem readOperators_of_stray : ∀ (cs : List Char) (ops : List Operator) {c : Char},
    (visible cs).find? (· ∉ Operator.marks) = some c →
      readOperators ops cs = .error (.unknownOperator c) := by
  intro cs
  induction cs with
  | nil =>
    intro ops c h
    cases h
  | cons d cs ih =>
    intro ops c h
    rw [readOperators]
    split
    · next hblank =>
      rw [visible_cons_of_isBlank hblank] at h
      exact ih ops h
    next hblank =>
    rw [visible_cons_of_not_isBlank hblank] at h
    by_cases hd : d ∈ Operator.marks
    · -- an operator is listed, and the first stray character stands behind it
      obtain ⟨op, rfl⟩ := Operator.mem_marks_iff.mp hd
      rw [List.find?_cons_of_neg (by simpa using hd)] at h
      rw [op.ofSymbol?_mark]
      exact ih _ h
    · rw [List.find?_cons_of_pos (by simpa using hd), Option.some.injEq] at h
      rw [Operator.ofSymbol?_of_notMem_marks hd, h]

/-- **Each operator is listed where it is first mentioned**, where the characters `seen` have been
read before. -/
theorem exists_readOperators : ∀ (cs seen : List Char) (ops : List Operator),
    (∀ c ∈ visible cs, c ∈ Operator.marks) → ops.map Operator.mark = seen.eraseDups →
      ∃ ops', readOperators ops cs = .ok ops' ∧
        ops'.map Operator.mark = (seen ++ visible cs).eraseDups := by
  intro cs
  induction cs with
  | nil =>
    intro seen ops _ hops
    exact ⟨ops, rfl, hops.trans (by rw [visible, List.filter_nil, List.append_nil])⟩
  | cons c cs ih =>
    intro seen ops hmarks hops
    rw [readOperators]
    split
    · next hblank =>
      rw [visible_cons_of_isBlank hblank] at hmarks ⊢
      exact ih seen ops hmarks hops
    next hblank =>
    rw [visible_cons_of_not_isBlank hblank] at hmarks ⊢
    obtain ⟨hc, hcs⟩ := List.forall_mem_cons.mp hmarks
    obtain ⟨op, rfl⟩ := Operator.mem_marks_iff.mp hc
    have hmem : op ∈ ops ↔ op.mark ∈ seen := by
      rw [← List.mem_map_of_injective Operator.mark_injective, hops, List.mem_eraseDups]
    have hlisted : (if op ∈ ops then ops else ops ++ [op]).map Operator.mark =
        (seen ++ [op.mark]).eraseDups := by
      rw [eraseDups_concat, apply_ite (List.map Operator.mark)]
      simp only [hmem, List.map_append, hops, List.map_singleton]
    rw [op.ofSymbol?_mark, List.append_cons]
    exact ih _ _ hcs hlisted

variable {text : String}

/-- A text that has no other characters lists the operators that it mentions. -/
theorem exists_parseOperators (hne : visible text.toList ≠ [])
    (hmarks : ∀ c ∈ visible text.toList, c ∈ Operator.marks) :
    ∃ ops, parseOperators text = .ok ops ∧
      ops.map Operator.mark = (visible text.toList).eraseDups := by
  obtain ⟨ops, hread, hops⟩ := exists_readOperators text.toList [] [] hmarks rfl
  refine ⟨ops, ?_, hops⟩
  rw [parseOperators, hread]
  cases ops with
  | nil => exact absurd (eraseDups_eq_nil_iff.mp hops.symm) hne
  | cons => rfl

theorem parseOperators_of_stray {c : Char}
    (h : (visible text.toList).find? (· ∉ Operator.marks) = some c) :
    parseOperators text = .error (.unknownOperator c) := by
  rw [parseOperators, readOperators_of_stray text.toList [] h]

theorem parseOperators_of_visible_eq_nil (h : visible text.toList = []) :
    parseOperators text = .error .noOperator := by
  have hmarks : ∀ c ∈ visible text.toList, c ∈ Operator.marks := by simp [h]
  obtain ⟨ops, hread, hops⟩ := exists_readOperators text.toList [] [] hmarks rfl
  rw [h] at hops
  rw [parseOperators, hread, List.map_eq_nil_iff.mp hops]

/-- What a text comes to when it is read as a list of operators. -/
inductive Listing (text : String) : Except ConfigError (List Operator) → Prop
  /-- All characters are blank. -/
  | noOperator (h : visible text.toList = []) : Listing text (.error .noOperator)
  /-- A character is neither blank nor an operator, and no such character stands before it. -/
  | unknownOperator {c : Char} (h : (visible text.toList).find? (· ∉ Operator.marks) = some c) :
    Listing text (.error (.unknownOperator c))
  /-- The characters that are not blank are operators. -/
  | operators {ops : List Operator} (hne : visible text.toList ≠ [])
      (hmarks : ∀ c ∈ visible text.toList, c ∈ Operator.marks)
      (hops : ops.map Operator.mark = (visible text.toList).eraseDups) :
    Listing text (.ok ops)

/-- **A text comes to one of the outcomes described.** -/
theorem parseOperators_listing (text : String) : Listing text (parseOperators text) := by
  by_cases hne : visible text.toList = []
  · rw [parseOperators_of_visible_eq_nil hne]
    exact .noOperator hne
  rcases hstray : (visible text.toList).find? (· ∉ Operator.marks) with _ | c
  · have hmarks : ∀ c ∈ visible text.toList, c ∈ Operator.marks := by simpa using hstray
    obtain ⟨ops, hparse, hops⟩ := exists_parseOperators hne hmarks
    rw [hparse]
    exact .operators hne hmarks hops
  · rw [parseOperators_of_stray hstray]
    exact .unknownOperator hstray

/-- **The texts that list operators**, and the list that each of them is read as. -/
theorem parseOperators_eq_ok_iff {ops : List Operator} :
    parseOperators text = .ok ops ↔ visible text.toList ≠ [] ∧
      (∀ c ∈ visible text.toList, c ∈ Operator.marks) ∧
      ops.map Operator.mark = (visible text.toList).eraseDups := by
  constructor
  · intro h
    have hlisting := parseOperators_listing text
    rw [h] at hlisting
    cases hlisting with
    | operators hne hmarks hops => exact ⟨hne, hmarks, hops⟩
  · rintro ⟨hne, hmarks, hops⟩
    obtain ⟨ops', hparse, hops'⟩ := exists_parseOperators hne hmarks
    rw [hparse, Operator.mark_injective.list_map (hops.trans hops'.symm)]

/-- A list of operators that was read is not empty. -/
theorem ne_nil_of_parseOperators {ops : List Operator} (h : parseOperators text = .ok ops) :
    ops ≠ [] := by
  rintro rfl
  obtain ⟨hne, -, hops⟩ := parseOperators_eq_ok_iff.mp h
  exact hne (eraseDups_eq_nil_iff.mp hops.symm)

/-- A text is refused for its first character that is neither blank nor an operator. -/
theorem parseOperators_eq_unknownOperator_iff {c : Char} :
    parseOperators text = .error (.unknownOperator c) ↔
      (visible text.toList).find? (· ∉ Operator.marks) = some c := by
  refine ⟨fun h => ?_, parseOperators_of_stray⟩
  have hlisting := parseOperators_listing text
  rw [h] at hlisting
  cases hlisting with
  | unknownOperator hstray => exact hstray

/-- A text without any character but blanks lists nothing. -/
theorem parseOperators_eq_noOperator_iff :
    parseOperators text = .error .noOperator ↔ visible text.toList = [] := by
  refine ⟨fun h => ?_, parseOperators_of_visible_eq_nil⟩
  have hlisting := parseOperators_listing text
  rw [h] at hlisting
  cases hlisting with
  | noOperator hnil => exact hnil

/-! ### Reading a list that was written -/

theorem visible_symbol (op : Operator) : visible op.symbol.toList = [op.mark] := by
  cases op <;> decide

/-- The characters of operators in a row are theirs and blanks. -/
theorem visible_listText (ops : List Operator) :
    visible (Operator.listText ops).toList = ops.map Operator.mark := by
  unfold Operator.listText Text.joinWords
  induction ops with
  | nil => rfl
  | cons op ops ih =>
    cases ops with
    | nil => rw [List.map_singleton, String.intercalate_singleton, visible_symbol]; rfl
    | cons op' ops =>
      have hspace : visible " ".toList = [] := by decide
      rw [List.map_cons, List.map_cons, String.intercalate_cons_cons, ← List.map_cons,
        String.toList_append, String.toList_append, visible_append, visible_append, visible_symbol,
        hspace, ih]
      rfl

/-- **A list that was read is read again from its text.** -/
theorem parseOperators_listText {ops : List Operator} (h : parseOperators text = .ok ops) :
    parseOperators (Operator.listText ops) = .ok ops := by
  obtain ⟨hne, hmarks, hops⟩ := parseOperators_eq_ok_iff.mp h
  rw [parseOperators_eq_ok_iff, visible_listText, hops]
  exact ⟨mt eraseDups_eq_nil_iff.mp hne, fun c hc => hmarks c (List.mem_eraseDups.mp hc),
    (eraseDups_eraseDups _).symm⟩

end PostfixCalculator
