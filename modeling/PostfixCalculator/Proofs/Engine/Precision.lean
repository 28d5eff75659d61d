import PostfixCalculator.Proofs.Decimal.Truncation
import PostfixCalculator.Proofs.Engine.Errors

/-!
# More places

The precision of an exact engine decides where a quotient is cut, and nothing else.  Two engines
that differ in their precision fail together and for the same reason; their sums, differences and
products are the same texts.  Of the two quotients, the one with fewer places is the other one, cut:
a digit that is shown at one precision is shown at every larger one.

## Main results

* `Engine.operate_error_congr` — the failures of exact engines do not depend on the precision.
* `Engine.exists_operate_of_precision_le` — the results at two precisions.
* `Engine.operate_more_places` — **more precision only adds digits.**
-/

namespace PostfixCalculator.Engine

open Decimal

variable {engine engine' : Engine} {a b : Option String} {symbol : String}

/-- **The failures of exact engines with the same operators are the same.** -/
theorem operate_error_congr (hexact : engine.backend = .exact)
    (hops : engine.operators = engine'.operators) {e : CalcError}
    (h : engine.operate a b symbol = .error e) : engine'.operate a b symbol = .error e := by
  have henabled? : engine'.enabled? symbol = engine.enabled? symbol := by
    rw [enabled?, enabled?, hops]
  have houtcome := operate_outcome engine a b symbol
  generalize engine.operate a b symbol = result at h houtcome
  cases houtcome with
  | invalidOperator hdisabled =>
    cases h
    exact operate_of_not_enabled (henabled?.trans hdisabled)
  | invalidOperand henabled hoperand =>
    cases h
    exact operate_eq_invalidOperand_iff.mpr ⟨⟨_, henabled?.trans henabled⟩, hoperand⟩
  | divisionByZero henabled ha hb hzero =>
    cases h
    exact operate_eq_divisionByZero_iff.mpr
      ⟨henabled?.trans henabled, _, _, ha, hb, .inl hzero⟩
  | @applied _ _ y _ _ _ hzero =>
    -- a divisor that is left to the exact backend is not zero
    rw [hexact] at h
    obtain ⟨-, hdivide, hvalue⟩ := Backend.applyExact_eq_error_iff.mp h
    rw [← Literal.isZero_iff, hzero hdivide] at hvalue
    cases hvalue

/-- **The results of exact engines at two precisions.**  Only a quotient depends on the precision,
and the one with fewer places is the plain form of the other one, cut. -/
theorem exists_operate_of_precision_le (hexact : engine.backend = .exact)
    (hexact' : engine'.backend = .exact) (hle : engine.precision ≤ engine'.precision)
    {op : Operator} (hop : op ∈ engine.operators) (hop' : op ∈ engine'.operators) {a b : String}
    {x y : Literal} (ha : Literal.parse? a = some x) (hb : Literal.parse? b = some y)
    (hdivide : op = .divide → y.value ≠ 0) :
    ∃ t u, engine.operate (some a) (some b) op.symbol = .ok (.exact t) ∧
      engine'.operate (some a) (some b) op.symbol = .ok (.exact u) ∧
      (op ≠ .divide → t = u) ∧
      (op = .divide → (truncate? u engine.precision).map normalize = some t) ∧
      ShowsFirstDigits t u := by
  obtain ⟨t, r, hr, ht, hcanonical⟩ := engine.exists_operate_exact hexact hop ha hb hdivide
  obtain ⟨u, r', hr', hu, hcanonical'⟩ := engine'.exists_operate_exact hexact' hop' ha hb hdivide
  refine ⟨t, u, ht, hu, ?_⟩
  by_cases hquotient : op = .divide
  · -- the quotient with fewer places is a cut of the other one
    subst hquotient
    rw [Machine.compute?, if_neg (hdivide rfl), Option.some.injEq] at hr hr'
    subst hr hr'
    obtain ⟨kept, hkept, hcut, hdigits⟩ := hcanonical'.exists_truncate? engine.precision
    rw [cut_cut hle] at hcut
    obtain rfl := hcut.unique hcanonical
    refine ⟨fun hne => absurd rfl hne, fun _ => ?_, hdigits⟩
    rw [hkept, Option.map_some]
  · -- the result does not depend on the precision
    have hsame : r = r' := by
      cases op with
      | divide => exact absurd rfl hquotient
      | plus | minus | times => exact Option.some.inj (hr.symm.trans hr')
    subst hsame
    obtain rfl := hcanonical.unique hcanonical'
    exact ⟨fun _ => rfl, fun h => absurd h hquotient, hcanonical.showsFirstDigits⟩

/-- Two exact engines with the same operators fail together or have results together. -/
theorem operate_of_precision_le (engine engine' : Engine) (hexact : engine.backend = .exact)
    (hexact' : engine'.backend = .exact) (hops : engine.operators = engine'.operators)
    (hle : engine.precision ≤ engine'.precision) (a b : Option String) (symbol : String) :
    (∃ e, engine.operate a b symbol = .error e ∧ engine'.operate a b symbol = .error e) ∨
    ∃ t u, engine.operate a b symbol = .ok (.exact t) ∧
      engine'.operate a b symbol = .ok (.exact u) ∧
      (symbol ≠ "/" → t = u) ∧
      (symbol = "/" → (truncate? u engine.precision).map normalize = some t) ∧
      ShowsFirstDigits t u := by
  rcases hresult : engine.operate a b symbol with e | v
  · exact .inl ⟨e, rfl, operate_error_congr hexact hops hresult⟩
  · obtain ⟨op, hop, s, t, x, y, rfl, rfl, rfl, hx, hy, hzero, -⟩ :=
      exists_of_operate_eq_ok hresult
    have hdivide : op = .divide → y.value ≠ 0 := by
      intro hop hvalue
      rw [← Literal.isZero_iff, hzero hop] at hvalue
      cases hvalue
    have hsymbol : op.symbol = "/" ↔ op = .divide := by cases op <;> decide
    rw [← hresult, Ne, hsymbol]
    exact .inr (exists_operate_of_precision_le hexact hexact' hle hop (hops ▸ hop) hx hy hdivide)

/-- **More precision only adds digits.**  Two exact engines with the same operators and the
precisions `p ≤ q` fail together and for the same reason, or have results together.  Sums,
differences and products are the same texts.  The quotient at `p` is the plain form of the quotient
at `q`, cut to `p` places.  In each case the digits that are shown at `p` are shown at `q`. -/
theorem operate_more_places (config : Config) (hexact : config.backend = .exact) {p q : Nat}
    (hpq : p ≤ q) (hq : q ≤ maxPrecision) (a b : Option String) (symbol : String) :
    (∃ e, (ofConfig { config with precision := p }).operate a b symbol = .error e ∧
      (ofConfig { config with precision := q }).operate a b symbol = .error e) ∨
    ∃ t u, (ofConfig { config with precision := p }).operate a b symbol = .ok (.exact t) ∧
      (ofConfig { config with precision := q }).operate a b symbol = .ok (.exact u) ∧
      (symbol ≠ "/" → t = u) ∧
      (symbol = "/" → (truncate? u p).map normalize = some t) ∧
      ShowsFirstDigits t u := by
  have hp : (ofConfig { config with precision := p }).precision = p :=
    Nat.min_eq_left (hpq.trans hq)
  have hq : (ofConfig { config with precision := q }).precision = q := Nat.min_eq_left hq
  have hle : (ofConfig { config with precision := p }).precision ≤
      (ofConfig { config with precision := q }).precision := by rwa [hp, hq]
  have hresults := operate_of_precision_le (ofConfig { config with precision := p })
    (ofConfig { config with precision := q }) hexact hexact rfl hle a b symbol
  rwa [hp] at hresults

/-- Minus two thirds at two places and at five. -/
theorem operate_more_places_thirds :
    (2 ≤ 5 ∧ 5 ≤ maxPrecision) ∧
    (ofConfig { precision := 2 }).operate (some "-2") (some "3") "/" = .ok (.exact "-0.66") ∧
    (ofConfig { precision := 5 }).operate (some "-2") (some "3") "/" = .ok (.exact "-0.66666") ∧
    (truncate? "-0.66666" 2).map normalize = some "-0.66" ∧
    ShowsFirstDigits "-0.66" "-0.66666" := by
  have hresult : (ofConfig { precision := 2 }).operate (some "-2") (some "3") "/" =
      .ok (.exact "-0.66") := by decide +kernel
  have hresult' : (ofConfig { precision := 5 }).operate (some "-2") (some "3") "/" =
      .ok (.exact "-0.66666") := by decide +kernel
  rcases operate_more_places {} rfl (p := 2) (q := 5) (by decide) (by decide) (some "-2") (some "3")
    "/" with ⟨e, he, -⟩ | ⟨t, u, ht, hu, -, hcut, hdigits⟩
  · rw [hresult] at he
    cases he
  · rw [hresult] at ht
    rw [hresult'] at hu
    cases ht
    cases hu
    exact ⟨⟨by decide, by decide⟩, hresult, hresult', hcut rfl, hdigits⟩

end PostfixCalculator.Engine
