import PostfixCalculator.Proofs.Entry
import PostfixCalculator.Proofs.Reduction.Numbers
import PostfixCalculator.Proofs.Reduction.Trace

/-!
# The spelling of numbers

A number can be typed in many ways, and the places that an operation keeps are counted on the text
that was typed.  An exact operation keeps enough of them whichever text it was, and writes its
result in the one canonical way.  So two reductions of the same numbers, spelled differently, go side by
side: they stack the same numbers, push the same results, and halt at the same word.

## Main definitions

* `SameNumber text text'` — the texts are literals of one number.
* `Respells word word'` — the words are equal, or literals of one number.
* `Agree R outcome outcome'` — two outcomes are the same failure, or values that are related.

## Main results

* `Engine.operate_respelled` — an exact operation does not depend on the spelling of its operands.
* `readWord_respelled`, `reduceFrom_respelled` — neither does what one word does, or several.
* `pushedResults_respelled` — the results of operators are equal texts.
-/

namespace PostfixCalculator

/-! ### Words -/

/-- The texts are literals of one number. -/
def SameNumber (text text' : String) : Prop := ∃ r, Denotes text r ∧ Denotes text' r

/-- The words are equal, or literals of one number. -/
def Respells (word word' : String) : Prop := word = word' ∨ SameNumber word word'

variable {word word' : String} {words words' : List String}

theorem SameNumber.of_numeric (h : isNumeric word = true) : SameNumber word word := by
  obtain ⟨n, hn⟩ := isNumeric_iff.mp h
  exact ⟨n.value, ⟨n, hn, rfl⟩, n, hn, rfl⟩

theorem SameNumber.isNumeric_left (h : SameNumber word word') : isNumeric word = true := by
  obtain ⟨r, hr, -⟩ := h
  exact hr.isNumeric

theorem SameNumber.isNumeric_right (h : SameNumber word word') : isNumeric word' = true := by
  obtain ⟨r, -, hr⟩ := h
  exact hr.isNumeric

theorem SameNumber.respells (h : SameNumber word word') : Respells word word' := .inr h

theorem Respells.isNumeric_eq (h : Respells word word') : isNumeric word = isNumeric word' := by
  rcases h with rfl | h
  · rfl
  · rw [h.isNumeric_left, h.isNumeric_right]

theorem Respells.sameNumber (h : Respells word word') (hword : isNumeric word = true) :
    SameNumber word word' := by
  rcases h with rfl | h
  · exact .of_numeric hword
  · exact h

/-- A word that is no number is not respelled. -/
theorem Respells.eq_of_not_numeric (h : Respells word word') (hword : isNumeric word = false) :
    word = word' := by
  rcases h with rfl | h
  · rfl
  · rw [h.isNumeric_left] at hword
    cases hword

theorem Respells.isNumberOrEnabled_eq (h : Respells word word') (ops : List Operator) :
    isNumberOrEnabled ops word = isNumberOrEnabled ops word' := by
  rcases h with rfl | h
  · rfl
  · rw [isNumberOrEnabled_of_numeric h.isNumeric_left,
      isNumberOrEnabled_of_numeric h.isNumeric_right]

/-- Texts of one number are read as literals of one value. -/
theorem sameNumber_iff : SameNumber word word' ↔
    isNumeric word = true ∧
      (Literal.parse? word).map Literal.value = (Literal.parse? word').map Literal.value := by
  constructor
  · intro h
    refine ⟨h.isNumeric_left, ?_⟩
    obtain ⟨r, ⟨n, hn, hr⟩, n', hn', hr'⟩ := h
    rw [hn, hn', Option.map_some, Option.map_some, hr, hr']
  · rintro ⟨hword, hvalues⟩
    obtain ⟨n, hn⟩ := isNumeric_iff.mp hword
    rw [hn, Option.map_some, eq_comm, Option.map_eq_some_iff] at hvalues
    obtain ⟨n', hn', hvalue⟩ := hvalues
    exact ⟨n.value, ⟨n, hn, rfl⟩, n', hn', hvalue⟩

instance (word word' : String) : Decidable (SameNumber word word') :=
  decidable_of_iff _ sameNumber_iff.symm

instance (word word' : String) : Decidable (Respells word word') :=
  inferInstanceAs (Decidable (word = word' ∨ SameNumber word word'))

/-! ### Lists of words -/

/-- A test that does not depend on spelling fails on the same lists. -/
theorem all_respelled {p : String → Bool} (hp : ∀ {w w'}, Respells w w' → p w = p w')
    (h : List.Forall₂ Respells words words') : words.all p = words'.all p := by
  induction h with
  | nil => rfl
  | cons hword _ ih => rw [List.all_cons, List.all_cons, hp hword, ih]

/-- The test of an entry does not depend on spelling. -/
theorem isAcceptable_respelled (h : List.Forall₂ Respells words words') (ops : List Operator) :
    isAcceptable ops words = isAcceptable ops words' := by
  rw [isAcceptable, isAcceptable, all_respelled Respells.isNumeric_eq (List.forall₂_take 2 h),
    all_respelled (Respells.isNumberOrEnabled_eq · ops) (List.forall₂_drop 2 h)]

/-- A list of numbers is respelled number by number. -/
theorem sameNumber_of_respells (h : List.Forall₂ Respells words words')
    (hwords : AllNumeric words) : List.Forall₂ SameNumber words words' := by
  induction h with
  | nil => exact .nil
  | cons hword _ ih =>
    obtain ⟨hnumeric, hrest⟩ := allNumeric_cons.mp hwords
    exact .cons (hword.sameNumber hnumeric) (ih hrest)

/-! ### Operations -/

variable {engine : Engine}

/-- Without a first operand, the second one plays no part. -/
theorem Engine.operate_none_congr (b b' : Option String) :
    engine.operate none b word = engine.operate none b' word := by
  cases henabled : engine.enabled? word with
  | none => rw [operate_of_not_enabled henabled, operate_of_not_enabled henabled]
  | some op => rw [operate_none_left henabled, operate_none_left henabled]

/-- **An exact operation does not depend on the spelling of its operands.**  It fails for the same
reason, or its result is the same text. -/
theorem Engine.operate_respelled (hexact : engine.backend = .exact) {a a' b b' : String}
    (ha : SameNumber a a') (hb : SameNumber b b') :
    engine.operate (some a) (some b) word = engine.operate (some a') (some b') word := by
  cases henabled : engine.enabled? word with
  | none => rw [operate_of_not_enabled henabled, operate_of_not_enabled henabled]
  | some op =>
    obtain ⟨rfl, hop⟩ := enabled?_eq_some_iff.mp henabled
    obtain ⟨r, ⟨x, hx, rfl⟩, x', hx', hxvalue⟩ := ha
    obtain ⟨s, ⟨y, hy, rfl⟩, y', hy', hyvalue⟩ := hb
    by_cases hzero : op = .divide ∧ y.value = 0
    · -- both divide by zero
      obtain ⟨rfl, hy₀⟩ := hzero
      have hy₀' : y'.value = 0 := hyvalue.trans hy₀
      rw [operate_of_isZero hop hx hy (y.isZero_iff.mpr hy₀),
        operate_of_isZero hop hx' hy' (y'.isZero_iff.mpr hy₀')]
    · -- both write the canonical text of the same number
      have hne : op = .divide → y.value ≠ 0 := fun hdivide hy₀ => hzero ⟨hdivide, hy₀⟩
      obtain ⟨t, q, hq, ht, hcanonical⟩ := engine.exists_operate_exact hexact hop hx hy hne
      obtain ⟨t', q', hq', ht', hcanonical'⟩ :=
        engine.exists_operate_exact hexact hop hx' hy' (hyvalue ▸ hne)
      rw [hxvalue, hyvalue, hq] at hq'
      cases hq'
      rw [ht, ht', hcanonical.unique hcanonical']

variable {stack stack' : List String}

/-- What an operator makes of two stacks of the same numbers is the same. -/
theorem operateOn_respelled (hexact : engine.backend = .exact)
    (hstack : List.Forall₂ SameNumber stack stack') (word : String) :
    operateOn engine stack word = operateOn engine stack' word := by
  rcases hstack with _ | ⟨hy, _ | ⟨hx, hbelow⟩⟩
  · rfl
  · exact Engine.operate_none_congr _ _
  · exact Engine.operate_respelled hexact hx hy

/-- A result pushed on stacks of the same numbers leaves stacks of the same numbers. -/
theorem push_result_respelled (hstack : List.Forall₂ SameNumber stack stack') {result : Value}
    (hresult : operateOn engine stack word = .ok result) :
    List.Forall₂ SameNumber (result.text :: stack.drop 2) (result.text :: stack'.drop 2) :=
  .cons (.of_numeric (Engine.isNumeric_of_operate hresult)) (List.forall₂_drop 2 hstack)

/-! ### Reductions -/

/-- Two outcomes are the same failure, or values that are related. -/
inductive Agree {α : Type} (R : α → α → Prop) : Except CalcError α → Except CalcError α → Prop
  /-- Both have values, which are related. -/
  | ok {a a' : α} (h : R a a') : Agree R (.ok a) (.ok a')
  /-- Both fail, for the same reason. -/
  | error (e : CalcError) : Agree R (.error e) (.error e)

/-- **What one word does does not depend on spelling**: it leaves stacks of the same numbers, or
halts both reductions, or fails in both. -/
theorem readWord_respelled (hexact : engine.backend = .exact)
    (hstack : List.Forall₂ SameNumber stack stack') (hword : Respells word word') :
    Agree (Option.Rel (List.Forall₂ SameNumber)) (readWord engine stack word)
      (readWord engine stack' word') := by
  cases hnumeric : isNumeric word with
  | true =>
    rw [readWord_of_numeric hnumeric, readWord_of_numeric (hword.isNumeric_eq ▸ hnumeric)]
    exact .ok (.some (.cons (hword.sameNumber hnumeric) hstack))
  | false =>
    obtain rfl := hword.eq_of_not_numeric hnumeric
    have hsame := operateOn_respelled hexact hstack word
    rw [readWord, readWord, ← hsame, if_neg (Bool.eq_false_iff.mp hnumeric),
      if_neg (Bool.eq_false_iff.mp hnumeric)]
    cases hon : operateOn engine stack word with
    | ok result => exact .ok (.some (push_result_respelled hstack hon))
    | error e =>
      dsimp only
      cases e.isFatal with
      | true => exact .error e
      | false => exact .ok .none

/-- Halts with stacks of the same numbers, in front of words that differ in spelling alone. -/
structure Halt.Alike (halt halt' : Halt) : Prop where
  stack : List.Forall₂ SameNumber halt.stack halt'.stack
  unread : List.Forall₂ Respells halt.unread halt'.unread

/-- **What several words do does not depend on spelling**: both reductions halt at the same word,
with stacks of the same numbers, or fail alike. -/
theorem reduceFrom_respelled (hexact : engine.backend = .exact)
    (hwords : List.Forall₂ Respells words words') : ∀ {stack stack' : List String},
    List.Forall₂ SameNumber stack stack' →
      Agree Halt.Alike (reduceFrom engine stack words) (reduceFrom engine stack' words') := by
  induction hwords with
  | nil =>
    intro stack stack' hstack
    exact .ok ⟨hstack, .nil⟩
  | cons hword hrest ih =>
    intro stack stack' hstack
    rw [reduceFrom_cons, reduceFrom_cons]
    -- nothing of the two words is needed but that their outcomes agree
    have hread := readWord_respelled hexact hstack hword
    revert hread
    generalize readWord engine stack _ = outcome
    generalize readWord engine stack' _ = outcome'
    intro hread
    cases hread with
    | error e => exact .error e
    | ok h =>
      cases h with
      | none => exact .ok ⟨hstack, .cons hword hrest⟩
      | some hnext => exact ih hnext

/-- A list of words and a respelled one reduce to words that differ in spelling alone. -/
theorem reduce_respelled (hexact : engine.backend = .exact)
    (hwords : List.Forall₂ Respells words words') :
    Agree (List.Forall₂ Respells) (reduce engine words) (reduce engine words') := by
  rw [reduce, reduce]
  have hreduce := reduceFrom_respelled hexact hwords .nil
  revert hreduce
  generalize reduceFrom engine [] words = outcome
  generalize reduceFrom engine [] words' = outcome'
  intro hreduce
  cases hreduce with
  | error e => exact .error e
  | ok h =>
    have hstack := h.stack.imp fun _ _ => SameNumber.respells
    exact .ok (List.rel_append (List.rel_reverse hstack) h.unread)

/-- **The results of operators are equal texts**, also where the numbers typed are spelled
differently. -/
theorem pushedResults_respelled (hexact : engine.backend = .exact)
    (hwords : List.Forall₂ Respells words words') : ∀ {stack stack' : List String},
    List.Forall₂ SameNumber stack stack' →
      pushedResults engine stack words = pushedResults engine stack' words' := by
  induction hwords with
  | nil => intro stack stack' _; rfl
  | @cons word word' _ _ hword _ ih =>
    intro stack stack' hstack
    cases hnumeric : isNumeric word with
    | true =>
      rw [pushedResults_of_numeric hnumeric,
        pushedResults_of_numeric (hword.isNumeric_eq ▸ hnumeric)]
      exact ih (.cons (hword.sameNumber hnumeric) hstack)
    | false =>
      obtain rfl := hword.eq_of_not_numeric hnumeric
      have hsame := operateOn_respelled hexact hstack word
      cases hon : operateOn engine stack word with
      | error e =>
        rw [pushedResults_of_error hnumeric hon,
          pushedResults_of_error hnumeric (hsame.symm.trans hon)]
      | ok result =>
        rw [pushedResults_of_ok hnumeric hon, pushedResults_of_ok hnumeric (hsame.symm.trans hon),
          ih (push_result_respelled hstack hon)]

end PostfixCalculator
