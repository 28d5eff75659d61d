import PostfixCalculator.Proofs.Entry
import PostfixCalculator.Proofs.Reduction.Run

/-!
# Engines with other operators

Which operators are enabled is looked at in two places only: by the test of an entry, for every word
of a candidate, and by the engine, for every operator that a reduction comes to.  Two sets of
operators that agree on the words at hand are told apart by neither, so the rest of a computation
does not depend on them.

## Main definitions

* `AgreeOn ops ops' words` — an operator among the words is in both lists or in neither.
* `Engine.withOperators` — an engine with other operators enabled.

## Main results

* `AgreeOn.isAcceptable_eq` — the test of an entry looks at the operators among the words alone.
* `Engine.operate_withOperators` — an operation looks at its own operator alone.
* `AgreeOn.reduce_eq` — so does a reduction at the operators among its words.
-/

namespace PostfixCalculator

/-- An operator among the words is in both lists or in neither. -/
def AgreeOn (ops ops' : List Operator) (words : List String) : Prop :=
  ∀ op : Operator, op.symbol ∈ words → (op ∈ ops ↔ op ∈ ops')

variable {ops ops' : List Operator} {word : String} {words : List String}

theorem agreeOn_cons : AgreeOn ops ops' (word :: words) ↔
    (∀ op : Operator, op.symbol = word → (op ∈ ops ↔ op ∈ ops')) ∧ AgreeOn ops ops' words := by
  simp only [AgreeOn, List.mem_cons, or_imp, forall_and]

/-! ### The test of an entry -/

theorem AgreeOn.isNumberOrEnabled_iff (h : AgreeOn ops ops' words) (hword : word ∈ words) :
    isNumberOrEnabled ops word = true ↔ isNumberOrEnabled ops' word = true := by
  unfold isNumberOrEnabled
  cases htoken : Token.ofWord word with
  | number n => exact Iff.rfl
  | operator op =>
    have hsymbol : op.symbol ∈ words := symbol_of_ofWord htoken ▸ hword
    simpa using h op hsymbol
  | other word => exact Iff.rfl

/-- The test of an entry looks at the operators among the words alone. -/
theorem AgreeOn.isAcceptable_eq (h : AgreeOn ops ops' words) :
    isAcceptable ops words = isAcceptable ops' words := by
  rw [Bool.eq_iff_iff, isAcceptable_iff, isAcceptable_iff]
  apply and_congr_right'
  exact forall₂_congr fun word hword => h.isNumberOrEnabled_iff (List.mem_of_mem_drop hword)

/-! ### Operations -/

namespace Engine

variable {engine : Engine}

/-- The engine with other operators enabled. -/
def withOperators (engine : Engine) (ops : List Operator) : Engine :=
  { engine with operators := ops }

@[simp] theorem operators_withOperators (engine : Engine) (ops : List Operator) :
    (engine.withOperators ops).operators = ops := rfl

theorem enabled?_withOperators
    (h : ∀ op : Operator, op.symbol = word → (op ∈ engine.operators ↔ op ∈ ops)) :
    (engine.withOperators ops).enabled? word = engine.enabled? word := by
  apply Option.ext
  intro op
  rw [enabled?_eq_some_iff, enabled?_eq_some_iff]
  apply and_congr_right
  intro hsymbol
  exact (h op hsymbol.symm).symm

/-- An operation looks at its own operator alone. -/
theorem operate_withOperators
    (h : ∀ op : Operator, op.symbol = word → (op ∈ engine.operators ↔ op ∈ ops))
    (a b : Option String) :
    (engine.withOperators ops).operate a b word = engine.operate a b word := by
  rw [operate, operate, enabled?_withOperators h]
  rfl

end Engine

/-! ### Reductions -/

variable {engine : Engine}

theorem readWord_withOperators
    (h : ∀ op : Operator, op.symbol = word → (op ∈ engine.operators ↔ op ∈ ops))
    (stack : List String) :
    readWord (engine.withOperators ops) stack word = readWord engine stack word := by
  rw [readWord, readWord, operateOn, operateOn, Engine.operate_withOperators h]

/-- A reduction looks at the operators among its words alone. -/
theorem AgreeOn.reduceFrom_eq : ∀ (words stack : List String),
    AgreeOn engine.operators ops words →
      reduceFrom (engine.withOperators ops) stack words = reduceFrom engine stack words := by
  intro words
  induction words with
  | nil => intro stack _; rfl
  | cons word words ih =>
    intro stack h
    obtain ⟨hword, hwords⟩ := agreeOn_cons.mp h
    rw [reduceFrom_cons, reduceFrom_cons, readWord_withOperators hword]
    rcases readWord engine stack word with e | (_ | stack')
    · rfl
    · rfl
    · exact ih stack' hwords

theorem AgreeOn.reduce_eq (h : AgreeOn engine.operators ops words) :
    reduce (engine.withOperators ops) words = reduce engine words := by
  rw [reduce, reduce, AgreeOn.reduceFrom_eq words [] h]

end PostfixCalculator
