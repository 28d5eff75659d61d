import PostfixCalculator.Proofs.Binary64.Error
import PostfixCalculator.Proofs.Engine.Results

/-!
# When an operation fails

An operation fails at the first of its looks that finds something wrong: the operator, the operands,
the divisor.  What is left to the backend fails only where the backend itself finds a divisor that
is zero, or a result that is not finite.  The exact backend finds neither in what is left to it.
The binary backend takes a divisor for zero that is too small for it, though a digit of it is not
zero.

## Main definitions

* `Backend.TakesForZero backend n` — the backend does not divide by the literal `n`.
* `Engine.Outcome` — what an operation comes to, look by look.

## Main results

* `Backend.apply_eq_divisionByZero_iff`, `Backend.eq_of_apply_eq_error` — the failures of a backend.
* `Engine.operate_outcome` — an operation comes to one of the outcomes described.
* `Engine.operate_errors` — **the condition of each failure**, for every engine and all operands.
-/

namespace PostfixCalculator

namespace Backend

variable {op : Operator} {a b : Literal} {places : Nat} {e : CalcError}

/-- The backend does not divide by the literal: it is zero, or too small for the binary backend. -/
def TakesForZero (backend : Backend) (n : Literal) : Prop :=
  n.isZero = true ∨ backend = .binary ∧ |n.value| ≤ Binary64.halfUnit

theorem takesForZero_exact {n : Literal} : TakesForZero .exact n ↔ n.value = 0 := by
  simp [TakesForZero, Literal.isZero_iff]

/-- All that is zero is small. -/
theorem takesForZero_binary {n : Literal} :
    TakesForZero .binary n ↔ (Binary64.ofLiteral n).isZero = true := by
  have hhalf : 0 ≤ Binary64.halfUnit := by
    unfold Binary64.halfUnit
    positivity
  rw [TakesForZero, Binary64.isZero_ofLiteral_iff, Literal.isZero_iff]
  refine ⟨?_, fun h => .inr ⟨rfl, h⟩⟩
  rintro (hzero | ⟨-, hsmall⟩)
  · rwa [hzero, abs_zero]
  · exact hsmall

/-- The exact backend fails for a divisor of zero only. -/
theorem applyExact_eq_error_iff :
    applyExact op a b places = .error e ↔ e = .divisionByZero ∧ op = .divide ∧ b.value = 0 := by
  rw [applyExact_eq]
  cases op with
  | plus => simp [applyRat]
  | minus => simp [applyRat]
  | times => simp [applyRat]
  | divide =>
    by_cases hzero : b.value = 0
    · simp [applyRat, hzero, eq_comm]
    · simp [applyRat, hzero]

/-- Arithmetic fails for a divisor of zero, or for a result that is not finite. -/
theorem applyBinary64_eq_error {x y : Binary64} (h : applyBinary64 op x y = .error e) :
    e = .overflow ∨ e = .divisionByZero ∧ op = .divide ∧ y.isZero = true := by
  unfold applyBinary64 at h
  split at h
  · next hzero =>
    rw [Bool.and_eq_true, decide_eq_true_iff] at hzero
    cases h
    exact .inr ⟨rfl, hzero⟩
  · dsimp only at h
    split at h
    · split at h <;> cases h
      exact .inl rfl
    · cases h
      exact .inl rfl

theorem applyBinary64_of_isZero {x y : Binary64} (hy : y.isZero = true) :
    applyBinary64 .divide x y = .error .divisionByZero := by
  rw [applyBinary64, hy]
  rfl

/-- The cut to its places loses no result, so the binary backend fails where arithmetic does. -/
theorem applyApproximate_eq_error_iff : applyApproximate op a b places = .error e ↔
    applyBinary64 op (.ofLiteral a) (.ofLiteral b) = .error e := by
  rcases hresult : applyBinary64 op (.ofLiteral a) (.ofLiteral b) with e' | r
  · rw [applyApproximate, hresult]
    simp
  · obtain ⟨x, hx, -⟩ := exists_applyApproximate hresult places
    rw [hx]
    simp

/-- **A backend divides by zero when it takes the divisor for zero.** -/
theorem apply_eq_divisionByZero_iff (backend : Backend) :
    backend.apply op a b places = .error .divisionByZero ↔
      op = .divide ∧ backend.TakesForZero b := by
  cases backend with
  | exact =>
    rw [apply, applyExact_eq_error_iff, takesForZero_exact]
    exact and_iff_right rfl
  | binary =>
    rw [apply, applyApproximate_eq_error_iff, takesForZero_binary]
    constructor
    · intro h
      rcases applyBinary64_eq_error h with hoverflow | ⟨-, hzero⟩
      · cases hoverflow
      · exact hzero
    · rintro ⟨rfl, hzero⟩
      exact applyBinary64_of_isZero hzero

/-- **A backend has no other failure, but for a binary result that is not finite.** -/
theorem eq_of_apply_eq_error {backend : Backend} (h : backend.apply op a b places = .error e) :
    e = .divisionByZero ∨ e = .overflow ∧ backend = .binary := by
  cases backend with
  | exact => exact .inl (applyExact_eq_error_iff.mp h).1
  | binary =>
    rcases applyBinary64_eq_error (applyApproximate_eq_error_iff.mp h) with hoverflow | ⟨hzero, -⟩
    · exact .inr ⟨hoverflow, rfl⟩
    · exact .inl hzero

end Backend

namespace Engine

variable {engine : Engine} {a b : Option String} {symbol : String}

/-- What an operation can come to: it fails at one of its looks, or comes to what the backend makes
of two literals. -/
inductive Outcome (engine : Engine) (a b : Option String) (symbol : String) :
    Except CalcError Value → Prop
  /-- The operator is not enabled. -/
  | invalidOperator (hdisabled : engine.enabled? symbol = none) :
    Outcome engine a b symbol (.error .invalidOperator)
  /-- An operand is missing or is not a literal. -/
  | invalidOperand {op : Operator} (henabled : engine.enabled? symbol = some op)
      (hoperand : a.bind Literal.parse? = none ∨ b.bind Literal.parse? = none) :
    Outcome engine a b symbol (.error .invalidOperand)
  /-- Every digit of the divisor is zero. -/
  | divisionByZero {x y : Literal} (henabled : engine.enabled? symbol = some .divide)
      (ha : a.bind Literal.parse? = some x) (hb : b.bind Literal.parse? = some y)
      (hzero : y.isZero = true) :
    Outcome engine a b symbol (.error .divisionByZero)
  /-- The backend is left with two literals. -/
  | applied {op : Operator} {x y : Literal} (henabled : engine.enabled? symbol = some op)
      (ha : a.bind Literal.parse? = some x) (hb : b.bind Literal.parse? = some y)
      (hzero : op = .divide → y.isZero = false) :
    Outcome engine a b symbol (engine.backend.apply op x y (placesFor op x y engine.precision))

/-- **An operation comes to one of the outcomes described.** -/
theorem operate_outcome (engine : Engine) (a b : Option String) (symbol : String) :
    Outcome engine a b symbol (engine.operate a b symbol) := by
  unfold operate
  rcases henabled : engine.enabled? symbol with _ | op
  · exact .invalidOperator henabled
  rcases ha : a.bind Literal.parse? with _ | x
  · exact .invalidOperand henabled (.inl ha)
  rcases hb : b.bind Literal.parse? with _ | y
  · exact .invalidOperand henabled (.inr hb)
  dsimp only
  split
  · next hzero =>
    rw [Bool.and_eq_true, decide_eq_true_iff] at hzero
    obtain ⟨rfl, hzero⟩ := hzero
    exact .divisionByZero henabled ha hb hzero
  · next hzero =>
    refine .applied henabled ha hb fun hdivide => ?_
    simpa [hdivide] using hzero

/-! ### The condition of each failure -/

theorem operate_eq_invalidOperator_iff :
    engine.operate a b symbol = .error .invalidOperator ↔ engine.enabled? symbol = none := by
  refine ⟨fun h => ?_, operate_of_not_enabled⟩
  have houtcome := operate_outcome engine a b symbol
  generalize engine.operate a b symbol = result at h houtcome
  cases houtcome with
  | invalidOperator hdisabled => exact hdisabled
  | invalidOperand => cases h
  | divisionByZero => cases h
  | applied => rcases Backend.eq_of_apply_eq_error h with he | ⟨he, -⟩ <;> cases he

theorem operate_eq_invalidOperand_iff :
    engine.operate a b symbol = .error .invalidOperand ↔
      (∃ op, engine.enabled? symbol = some op) ∧
        (a.bind Literal.parse? = none ∨ b.bind Literal.parse? = none) := by
  have houtcome := operate_outcome engine a b symbol
  generalize engine.operate a b symbol = result at houtcome ⊢
  cases houtcome with
  | invalidOperator hdisabled => simp [hdisabled]
  | invalidOperand henabled hoperand => exact iff_of_true rfl ⟨⟨_, henabled⟩, hoperand⟩
  | divisionByZero _ ha hb _ => simp [ha, hb]
  | applied _ ha hb _ =>
    rw [ha, hb]
    refine ⟨fun h => ?_, by simp⟩
    rcases Backend.eq_of_apply_eq_error h with he | ⟨he, -⟩ <;> cases he

theorem operate_eq_divisionByZero_iff :
    engine.operate a b symbol = .error .divisionByZero ↔
      engine.enabled? symbol = some .divide ∧ ∃ x y, a.bind Literal.parse? = some x ∧
        b.bind Literal.parse? = some y ∧ engine.backend.TakesForZero y := by
  have houtcome := operate_outcome engine a b symbol
  generalize engine.operate a b symbol = result at houtcome ⊢
  cases houtcome with
  | invalidOperator hdisabled => simp [hdisabled]
  | invalidOperand _ hoperand => rcases hoperand with h | h <;> simp [h]
  | divisionByZero henabled ha hb hzero => simp [henabled, ha, hb, Backend.TakesForZero, hzero]
  | applied henabled ha hb _ =>
    rw [Backend.apply_eq_divisionByZero_iff]
    simp [henabled, ha, hb]

/-- Only a binary result can fail to be finite. -/
theorem backend_eq_binary_of_overflow (h : engine.operate a b symbol = .error .overflow) :
    engine.backend = .binary := by
  have houtcome := operate_outcome engine a b symbol
  generalize engine.operate a b symbol = result at h houtcome
  cases houtcome with
  | invalidOperator => cases h
  | invalidOperand => cases h
  | divisionByZero => cases h
  | applied =>
    rcases Backend.eq_of_apply_eq_error h with he | ⟨-, hbinary⟩
    · cases he
    · exact hbinary

/-- A symbol is not enabled when it is that of no enabled operator. -/
theorem enabled?_eq_none_iff :
    engine.enabled? symbol = none ↔ ∀ op ∈ engine.operators, symbol ≠ op.symbol := by
  rw [Option.eq_none_iff_forall_ne_some]
  constructor
  · intro h op hop heq
    exact h op (enabled?_eq_some_iff.mpr ⟨heq, hop⟩)
  · intro h op henabled
    obtain ⟨heq, hop⟩ := enabled?_eq_some_iff.mp henabled
    exact h op hop heq

/-- **The condition of each failure.**  The operator is invalid when its symbol is that of no
enabled one.  Otherwise an operand is invalid when one is missing or is not a literal.  Otherwise
there is a division by zero, which alone is fatal, when the operator divides and the backend takes
the divisor for zero: the exact backend when all its digits are zero, and the binary one also when
it does not exceed half of the least positive number.  Otherwise there is a result, or one of the
binary backend that is not finite. -/
theorem operate_errors (config : Config) (a b : Option String) (symbol : String) :
    let result := (ofConfig config).operate a b symbol
    (result = .error .invalidOperator ↔ ∀ op ∈ config.operators, symbol ≠ op.symbol) ∧
    (result = .error .invalidOperand ↔ (∃ op ∈ config.operators, symbol = op.symbol) ∧
      (a.bind Literal.parse? = none ∨ b.bind Literal.parse? = none)) ∧
    (result = .error .divisionByZero ↔ .divide ∈ config.operators ∧ symbol = "/" ∧
      ∃ x y, a.bind Literal.parse? = some x ∧ b.bind Literal.parse? = some y ∧
        (y.isZero = true ∨ config.backend = .binary ∧ |y.value| ≤ Binary64.halfUnit)) ∧
    (config.backend = .binary ∨ result ≠ .error .overflow) ∧
    ∀ e : CalcError, e.isFatal = true ↔ e = .divisionByZero := by
  intro result
  have hoverflow : result = .error .overflow → config.backend = .binary :=
    backend_eq_binary_of_overflow
  refine ⟨?_, ?_, ?_, (em _).imp_right (mt hoverflow), fun e => by cases e <;> decide⟩
  · exact operate_eq_invalidOperator_iff.trans enabled?_eq_none_iff
  · have henabled : (∃ op, (ofConfig config).enabled? symbol = some op) ↔
        ∃ op ∈ config.operators, symbol = op.symbol :=
      exists_congr fun op => enabled?_eq_some_iff.trans and_comm
    rw [← henabled]
    exact operate_eq_invalidOperand_iff
  · have henabled : (ofConfig config).enabled? symbol = some .divide ↔
        .divide ∈ config.operators ∧ symbol = "/" :=
      enabled?_eq_some_iff.trans and_comm
    rw [← and_assoc, ← henabled]
    exact operate_eq_divisionByZero_iff

/-- The binary backend divides by zero although the divisor has a digit that is not zero. -/
theorem operate_divisionByZero_tiny :
    let exponent : Exponent := ⟨false, some .minus, [4, 0, 0], by decide, by decide⟩
    let n : Literal := ⟨false, [1], none, some exponent, by decide⟩
    Literal.parse? "1e-400" = some n ∧ n.isZero = false ∧
      (ofConfig { backend := .binary }).operate (some "1") (some "1e-400") "/" =
        .error .divisionByZero := by
  decide +kernel

end Engine

end PostfixCalculator
