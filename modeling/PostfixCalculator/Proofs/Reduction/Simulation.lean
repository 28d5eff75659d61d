import PostfixCalculator.Proofs.Engine.Exact
import PostfixCalculator.Proofs.Reduction.Run

/-!
# An exact reduction is a run of the stack machine

The reduction of words by an exact engine works on texts: each result is written, read again and
counted for its places.  The stack machine works on numbers and writes nothing.  Word by word the
two stay in step: the texts stacked by the one denote the numbers stacked by the other, and both
halt at the same word or divide by zero at the same word.

## Main definitions

* `Machine.readWord` — what one word does to the stack of the machine.
* `Matches` — two outcomes of one word that agree.

## Main results

* `matches_readWord` — one word has outcomes that agree.
* `reduceFrom_simulates_run` — so have several.
* `reduce_simulates_run` — **the reduction of any words by an exact engine is the run of the
  machine on numbers.**
-/

namespace PostfixCalculator

open Decimal

/-! ### One word on the machine -/

namespace Machine

/-- What a token does to the stack of the machine: the stack after it, or none inside where the
machine stops, or none outside after a division by zero. -/
def readToken (ops : List Operator) (places : Nat) (stack : List ℚ) :
    Token → Option (Option (List ℚ))
  | .number n => some (some (n.value :: stack))
  | .operator op =>
    match stack with
    | y :: x :: below =>
      if op ∈ ops then (compute? places op x y).map fun z => some (z :: below) else some none
    | _ => some none
  | .other _ => some none

theorem readToken_enabled {ops : List Operator} {op : Operator} (hop : op ∈ ops) {places : Nat}
    {x y : ℚ} {below : List ℚ} :
    readToken ops places (y :: x :: below) (.operator op) =
      (compute? places op x y).map fun z => some (z :: below) :=
  if_pos hop

/-- A word that is neither a number nor an enabled operator stops the machine. -/
theorem readToken_of_not_enabled {engine : Engine} {word : String}
    (hparse : Literal.parse? word = none) (henabled : engine.enabled? word = none) (places : Nat)
    (stack : List ℚ) :
    readToken engine.operators places stack (Token.ofWord word) = some none := by
  rcases hop : Operator.ofSymbol? word with _ | op
  · rw [ofWord_of_none hparse hop]
    rfl
  · have hmem : op ∉ engine.operators := by
      intro hmem
      rw [Operator.ofSymbol?_eq_some_iff.mp hop, Engine.enabled?_symbol hmem] at henabled
      cases henabled
    rw [ofWord_of_ofSymbol? hparse hop]
    rcases stack with _ | ⟨y, _ | ⟨x, below⟩⟩
    · rfl
    · rfl
    · exact if_neg hmem

/-- What one word does to the stack of the machine. -/
def readWord (ops : List Operator) (places : Nat) (stack : List ℚ) (word : String) :
    Option (Option (List ℚ)) :=
  readToken ops places stack (Token.ofWord word)

/-- The machine goes on with the stack after its first word, or stops in front of that word. -/
theorem run_cons (ops : List Operator) (places : Nat) (stack : List ℚ) (word : String)
    (words : List String) :
    run ops places stack (word :: words) =
      match readWord ops places stack word with
      | some (some stack') => run ops places stack' words
      | some none => some (stack, word :: words)
      | none => none := by
  rw [run.eq_def, readWord]
  dsimp only
  rcases Token.ofWord word with n | op | other
  · rfl
  · rcases stack with _ | ⟨y, _ | ⟨x, below⟩⟩
    · rfl
    · rfl
    · dsimp only [readToken]
      split
      · cases compute? places op x y <;> rfl
      · rfl
  · rfl

/-- Without a division, the number of places plays no part in what a word does. -/
theorem readWord_places {ops : List Operator} {word : String} (hword : word ≠ "/")
    (places places' : Nat) (stack : List ℚ) :
    readWord ops places stack word = readWord ops places' stack word := by
  unfold readWord
  rcases htoken : Token.ofWord word with n | op | other
  · rfl
  · have hop : op ≠ .divide := by
      rintro rfl
      exact hword (symbol_of_ofWord htoken)
    rcases stack with _ | ⟨y, _ | ⟨x, below⟩⟩
    · rfl
    · rfl
    · cases op with
      | plus => rfl
      | minus => rfl
      | times => rfl
      | divide => exact absurd rfl hop
  · rfl

/-- The machine stops for want of an operator or of operands, in which the number of places plays
no part. -/
theorem readToken_eq_none_places {ops : List Operator} {places : Nat} {stack : List ℚ}
    {token : Token} (h : readToken ops places stack token = some none) (places' : Nat) :
    readToken ops places' stack token = some none := by
  rcases token with n | op | other
  · cases h
  · rcases stack with _ | ⟨y, _ | ⟨x, below⟩⟩
    · rfl
    · rfl
    · by_cases hop : op ∈ ops
      · rw [readToken_enabled hop] at h
        cases hz : compute? places op x y <;> rw [hz] at h <;> cases h
      · exact if_neg hop
  · rfl

/-- The machine stops behind the words that it has read, and without a division among them it stops
there with the same stack whatever the number of places. -/
theorem exists_of_run_eq_some {ops : List Operator} {places : Nat} {stack' : List ℚ}
    {unread : List String} : ∀ (words : List String) (stack : List ℚ),
    run ops places stack words = some (stack', unread) →
      ∃ done, words = done ++ unread ∧
        ("/" ∉ done → ∀ places', run ops places' stack words = some (stack', unread)) := by
  intro words
  induction words with
  | nil =>
    intro stack h
    cases h
    exact ⟨[], rfl, fun _ _ => rfl⟩
  | cons word words ih =>
    intro stack h
    rw [run_cons] at h
    rcases hread : readWord ops places stack word with _ | _ | stack₁
    · rw [hread] at h
      cases h
    · rw [hread] at h
      cases h
      refine ⟨[], rfl, fun _ places' => ?_⟩
      rw [run_cons, readWord, readToken_eq_none_places hread places']
    · rw [hread] at h
      obtain ⟨done, hdone, hplaces⟩ := ih stack₁ h
      refine ⟨word :: done, by rw [hdone, List.cons_append], fun hnone places' => ?_⟩
      rw [List.mem_cons, not_or] at hnone
      rw [run_cons, readWord_places (Ne.symm hnone.1) places' places, hread]
      exact hplaces hnone.2 places'

end Machine

/-! ### The simulation -/

/-- Outcomes of one word that agree, on texts and on numbers. -/
inductive Matches : Except CalcError (Option (List String)) → Option (Option (List ℚ)) → Prop
  /-- Both go on, with stacks that agree. -/
  | goOn {texts : List String} {stack : List ℚ} (h : List.Forall₂ Denotes texts stack) :
    Matches (.ok (some texts)) (some (some stack))
  /-- Both stop in front of the word. -/
  | halt : Matches (.ok none) (some none)
  /-- Both have divided by zero. -/
  | abort : Matches (.error .divisionByZero) none

/-- An enabled operator has outcomes that agree. -/
theorem matches_operator {engine : Engine} (hexact : engine.backend = .exact) {op : Operator}
    (hop : op ∈ engine.operators) {texts : List String} {stack : List ℚ}
    (h : List.Forall₂ Denotes texts stack) :
    Matches (readWord engine texts op.symbol)
      (Machine.readWord engine.operators engine.precision stack op.symbol) := by
  rw [Machine.readWord, ofWord_symbol]
  rcases h with _ | ⟨⟨y, hy, rfl⟩, _ | ⟨⟨x, hx, rfl⟩, hbelow⟩⟩
  -- fewer than two operands halt both
  · rw [readWord_of_few (not_numeric_symbol op) (by simp)]
    exact .halt
  · rw [readWord_of_few (not_numeric_symbol op) (by simp)]
    exact .halt
  · rw [readWord, if_neg (Bool.eq_false_iff.mp (not_numeric_symbol op)), operateOn]
    dsimp only [List.tail_cons, List.head?_cons, List.drop_succ_cons, List.drop_zero]
    rw [Machine.readToken_enabled hop]
    by_cases hzero : op = .divide ∧ y.value = 0
    · obtain ⟨rfl, hyzero⟩ := hzero
      rw [Engine.operate_of_isZero hop hx hy (y.isZero_iff.mpr hyzero), Machine.compute?,
        if_pos hyzero]
      exact .abort
    · obtain ⟨t, r, hr, ht, hcanonical⟩ := engine.exists_operate_exact hexact hop hx hy
        fun hdivide hyzero => hzero ⟨hdivide, hyzero⟩
      rw [ht, hr]
      exact .goOn (.cons hcanonical.denotes hbelow)

/-- **One word has outcomes that agree.** -/
theorem matches_readWord {engine : Engine} (hexact : engine.backend = .exact)
    {texts : List String} {stack : List ℚ} (h : List.Forall₂ Denotes texts stack) (word : String) :
    Matches (readWord engine texts word)
      (Machine.readWord engine.operators engine.precision stack word) := by
  rcases hparse : Literal.parse? word with _ | n
  · rcases henabled : engine.enabled? word with _ | op
    · -- a word that is no enabled operator halts both
      rw [readWord_of_not_enabled (not_numeric_iff.mpr hparse) henabled, Machine.readWord,
        Machine.readToken_of_not_enabled hparse henabled]
      exact .halt
    · obtain ⟨rfl, hop⟩ := Engine.enabled?_eq_some_iff.mp henabled
      exact matches_operator hexact hop h
  · rw [readWord_of_numeric (isNumeric_iff.mpr ⟨n, hparse⟩), Machine.readWord,
      ofWord_of_parse? hparse]
    exact .goOn (.cons ⟨n, hparse, rfl⟩ h)

/-- **Several words have outcomes that agree**, from stacks that agree. -/
theorem reduceFrom_simulates_run (engine : Engine) (hexact : engine.backend = .exact) :
    ∀ (words texts : List String) (stack : List ℚ), List.Forall₂ Denotes texts stack →
      match Machine.run engine.operators engine.precision stack words with
      | none => reduceFrom engine texts words = .error .divisionByZero
      | some (stack', unread) => ∃ texts', reduceFrom engine texts words = .ok ⟨texts', unread⟩ ∧
          List.Forall₂ Denotes texts' stack' := by
  intro words
  induction words with
  | nil => intro texts stack h; exact ⟨texts, rfl, h⟩
  | cons word words ih =>
    intro texts stack h
    rw [Machine.run_cons, reduceFrom_cons]
    -- the stacks still agree after the word, whatever it was; nothing else of it is needed
    have hword := matches_readWord hexact h word
    revert hword
    generalize readWord engine texts word = outcome
    generalize Machine.readWord engine.operators engine.precision stack word = outcome'
    intro hword
    cases hword with
    | goOn h' => exact ih _ _ h'
    | halt => exact ⟨texts, rfl, h⟩
    | abort => rfl

/-- **The reduction of any words by an exact engine is the run of the machine on numbers.**  It ends
with a division by zero exactly when the machine does.  Otherwise it halts at the same word, with
texts of the numbers that the machine has stacked, and shows the other words as they are.  Where no
division was carried out, the number of places played no part: no digit was lost. -/
theorem reduce_simulates_run (config : Config) (hexact : config.backend = .exact)
    (words : List String) :
    (reduce (Engine.ofConfig config) words = .error .divisionByZero ↔
      Machine.run config.operators (min config.precision maxPrecision) [] words = none) ∧
    ∀ stack unread, Machine.run config.operators (min config.precision maxPrecision) [] words =
        some (stack, unread) →
      ∃ i ≤ words.length, ∃ texts, unread = words.drop i ∧
        reduceFrom (Engine.ofConfig config) [] words = .ok ⟨texts, words.drop i⟩ ∧
        reduce (Engine.ofConfig config) words = .ok (texts.reverse ++ words.drop i) ∧
        List.Forall₂ Denotes texts stack ∧
        ("/" ∉ words.take i →
          ∀ places, Machine.run config.operators places [] words = some (stack, unread)) := by
  have hsim : match Machine.run config.operators (min config.precision maxPrecision) [] words with
      | none => reduceFrom (Engine.ofConfig config) [] words = .error .divisionByZero
      | some (stack, unread) => ∃ texts,
          reduceFrom (Engine.ofConfig config) [] words = .ok ⟨texts, unread⟩ ∧
            List.Forall₂ Denotes texts stack :=
    reduceFrom_simulates_run (Engine.ofConfig config) hexact words [] [] .nil
  constructor
  · rcases hrun : Machine.run config.operators (min config.precision maxPrecision) [] words with
      _ | ⟨stack, unread⟩
    · rw [hrun] at hsim
      simp only [reduce, hsim, Except.map]
    · rw [hrun] at hsim
      obtain ⟨texts, hreduce, -⟩ := hsim
      simp [reduce, hreduce, Except.map]
  · intro stack unread hrun
    rw [hrun] at hsim
    obtain ⟨texts, hreduce, htexts⟩ := hsim
    obtain ⟨done, hdone, hplaces⟩ := Machine.exists_of_run_eq_some words [] hrun
    have htake : words.take done.length = done := by rw [hdone, List.take_left]
    have hdrop : words.drop done.length = unread := by rw [hdone, List.drop_left]
    refine ⟨done.length, by simp [hdone], texts, hdrop.symm, hdrop ▸ hreduce, ?_, htexts, ?_⟩
    · rw [reduce, hreduce, hdrop]
      rfl
    · rw [htake]
      exact hplaces

/-- A run without a division, at no places, that stops in front of a word that is no operator. -/
theorem reduce_simulates_run_product :
    ∃ texts, reduce (Engine.ofConfig { precision := 0 }) ["1.5", "2", "*", "0.25", "-", "x"] =
        .ok (texts.reverse ++ ["x"]) ∧ List.Forall₂ Denotes texts [11 / 4] := by
  obtain ⟨i, -, texts, hunread, -, hreduce, htexts, -⟩ :=
    (reduce_simulates_run { precision := 0 } rfl ["1.5", "2", "*", "0.25", "-", "x"]).2
      [11 / 4] ["x"] (by decide +kernel)
  rw [← hunread] at hreduce
  exact ⟨texts, hreduce, htexts⟩

end PostfixCalculator
