import PostfixCalculator.Proofs.Reduction.Run

/-!
# What operators push

While words are read, every operator that is carried out pushes the text of its result.  These texts
are what a reduction computes, as opposed to the numbers that it is given.  There is one of them for
each operator carried out, and each leaves two words less to show.

## Main definitions

* `pushedResults engine stack words` — the texts that operators push, in order.

## Main results

* `length_add_pushedResults` — a reduction shows two words less for every operator carried out.
-/

namespace PostfixCalculator

/-- The texts that operators push while the words are read on the stack, the first one first.  None
is pushed any more once a word cannot be carried out. -/
def pushedResults (engine : Engine) (stack : List String) : List String → List String
  | [] => []
  | word :: words =>
    if isNumeric word then pushedResults engine (word :: stack) words
    else
      match operateOn engine stack word with
      | .ok result => result.text :: pushedResults engine (result.text :: stack.drop 2) words
      | .error _ => []

variable {engine : Engine} {stack : List String} {word : String} {words : List String}

theorem pushedResults_of_numeric (h : isNumeric word = true) :
    pushedResults engine stack (word :: words) = pushedResults engine (word :: stack) words := by
  rw [pushedResults, if_pos h]

theorem pushedResults_of_ok {result : Value} (hword : isNumeric word = false)
    (hresult : operateOn engine stack word = .ok result) :
    pushedResults engine stack (word :: words) =
      result.text :: pushedResults engine (result.text :: stack.drop 2) words := by
  rw [pushedResults, if_neg (Bool.eq_false_iff.mp hword), hresult]

theorem pushedResults_of_error {e : CalcError} (hword : isNumeric word = false)
    (herror : operateOn engine stack word = .error e) :
    pushedResults engine stack (word :: words) = [] := by
  rw [pushedResults, if_neg (Bool.eq_false_iff.mp hword), herror]

/-- **A reduction shows two words less for every operator carried out**: its operands and its symbol
make way for one result. -/
theorem length_add_pushedResults {halt : Halt} : ∀ (words stack : List String),
    reduceFrom engine stack words = .ok halt →
      halt.stack.length + halt.unread.length + 2 * (pushedResults engine stack words).length =
        stack.length + words.length := by
  intro words
  induction words with
  | nil =>
    intro stack h
    cases h
    simp [pushedResults]
  | cons word words ih =>
    intro stack h
    rw [reduceFrom_cons] at h
    cases hword : isNumeric word with
    | true =>
      -- a number goes from the words to the stack, and nothing is computed
      rw [readWord_of_numeric hword] at h
      have hrest := ih (word :: stack) h
      rw [pushedResults_of_numeric hword]
      simp only [List.length_cons] at hrest ⊢
      omega
    | false =>
      rcases hread : readWord engine stack word with e | (_ | next)
      · rw [hread] at h
        cases h
      · rw [hread] at h
        cases h
        -- from here on nothing is read, so nothing is pushed either
        obtain ⟨e, herror, -⟩ := exists_error_of_readWord hread
        simp [pushedResults_of_error hword herror]
      · rw [hread] at h
        obtain ⟨x, y, below, result, rfl, hresult, rfl⟩ := exists_operands_of_readWord hword hread
        have hrest := ih (result.text :: below) h
        have hon : operateOn engine (y :: x :: below) word = .ok result := hresult
        rw [pushedResults_of_ok hword hon]
        simp only [List.length_cons, List.drop_succ_cons, List.drop_zero] at hrest ⊢
        omega

/-- A third and twice the third, before a word that is no operator. -/
example :
    pushedResults (Engine.ofConfig { precision := 2 }) [] ["1", "3", "/", "2", "*", "%", "+"] =
      ["0.33", "0.66"] := by
  decide +kernel

end PostfixCalculator
