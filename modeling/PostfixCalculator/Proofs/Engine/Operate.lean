import Mathlib
import PostfixCalculator.Engine.Basic

/-!
# What one operation looks at

An operation looks at its operator, then at its operands, then at the divisor, and only then hands
the two literals to the backend.  The lemmas here say what comes of each look, so that no later
proof has to open `Engine.operate`.

## Main results

* `enabled?_eq_some_iff` — the enabled symbols are those of the engine's operators.
* `operate_of_not_enabled`, `operate_none_left`, `operate_of_isZero`, `operate_eq_apply` — the
  outcome of each look.
* `exists_of_operate_eq_ok` — a result comes from two literals and an enabled operator.
-/

namespace PostfixCalculator.Engine

variable {engine : Engine} {a b : Option String} {symbol : String} {op : Operator}

theorem enabled?_eq_some_iff :
    engine.enabled? symbol = some op ↔ symbol = op.symbol ∧ op ∈ engine.operators := by
  rw [enabled?, Option.filter_eq_some_iff, Operator.ofSymbol?_eq_some_iff, decide_eq_true_iff]

theorem enabled?_symbol (hop : op ∈ engine.operators) : engine.enabled? op.symbol = some op :=
  enabled?_eq_some_iff.mpr ⟨rfl, hop⟩

/-- The operator is looked at first. -/
theorem operate_of_not_enabled (h : engine.enabled? symbol = none) :
    engine.operate a b symbol = .error .invalidOperator := by
  rw [operate, h]

/-- Then a missing operand is noticed; the first one is missing whenever one is. -/
theorem operate_none_left (h : engine.enabled? symbol = some op) :
    engine.operate none b symbol = .error .invalidOperand := by
  rw [operate, h]
  rfl

/-- With two literals, all but a division by zero is left to the backend. -/
theorem operate_eq_apply (hop : op ∈ engine.operators) {a b : String} {x y : Literal}
    (ha : Literal.parse? a = some x) (hb : Literal.parse? b = some y) :
    engine.operate (some a) (some b) op.symbol =
      if op = .divide && y.isZero then .error .divisionByZero
      else engine.backend.apply op x y (placesFor op x y engine.precision) := by
  rw [operate, enabled?_symbol hop]
  simp only [Option.bind_some, ha, hb]

/-- A divisor whose digits are all zero is not divided by. -/
theorem operate_of_isZero (hop : .divide ∈ engine.operators) {a b : String} {x y : Literal}
    (ha : Literal.parse? a = some x) (hb : Literal.parse? b = some y) (hzero : y.isZero = true) :
    engine.operate (some a) (some b) Operator.divide.symbol = .error .divisionByZero := by
  rw [operate_eq_apply hop ha hb, hzero]
  rfl

/-- **A result comes from two literals and an enabled operator.** -/
theorem exists_of_operate_eq_ok {v : Value} (h : engine.operate a b symbol = .ok v) :
    ∃ op ∈ engine.operators, ∃ (s t : String) (x y : Literal), symbol = op.symbol ∧
      a = some s ∧ b = some t ∧ Literal.parse? s = some x ∧ Literal.parse? t = some y ∧
      (op = .divide → y.isZero = false) ∧
      engine.backend.apply op x y (placesFor op x y engine.precision) = .ok v := by
  rcases henabled : engine.enabled? symbol with _ | op
  · rw [operate_of_not_enabled henabled] at h
    cases h
  obtain ⟨rfl, hop⟩ := enabled?_eq_some_iff.mp henabled
  unfold operate at h
  rw [henabled] at h
  dsimp only at h
  split at h
  · next x y hx hy =>
    obtain ⟨s, rfl, hs⟩ := Option.bind_eq_some_iff.mp hx
    obtain ⟨t, rfl, ht⟩ := Option.bind_eq_some_iff.mp hy
    split at h
    · cases h
    · next hzero =>
      refine ⟨op, hop, s, t, x, y, rfl, rfl, rfl, hs, ht, fun hdivide => ?_, h⟩
      simpa [hdivide] using hzero
  · cases h

end PostfixCalculator.Engine
