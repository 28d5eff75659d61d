import PostfixCalculator.Machine
import PostfixCalculator.Proofs.Engine.Operate
import PostfixCalculator.Proofs.Literal.Flat

/-!
# The exact engine

An exact engine computes on the numbers that its operands denote and writes the result with a number
of places that is chosen from the spelling of the operands.  That number covers every place of a
sum, a difference or a product, so these lose no digit; a quotient is cut to the places that the
engine keeps.  In each case the text is the canonical one, so equal numbers have equal texts.

## Main definitions

* `neededPlaces` — the places that a sum, a difference or a product of two literals can have.

## Main results

* `neededPlaces_le_placesFor` — an operation keeps all of them.
* `exists_applyExact` — the backend writes the canonical text of the exact result.
* `Engine.operate_exact_isCanonicalText` — **every result of an exact engine is the canonical text
  of the exact result**, whichever operands and precision.
-/

namespace PostfixCalculator

open Decimal

/-! ### Places -/

/-- The places that a sum, a difference or a product of two literals can have.  A quotient may have
no end of places; none of them is promised. -/
def neededPlaces (op : Operator) (a b : Literal) : Nat :=
  match op with
  | .plus => max a.fractionLength b.fractionLength
  | .minus => max a.fractionLength b.fractionLength
  | .times => a.fractionLength + b.fractionLength
  | .divide => 0

/-- An operation keeps all the places that its result can have. -/
theorem neededPlaces_le_placesFor (op : Operator) (a b : Literal) (least : Nat) :
    neededPlaces op a b ≤ placesFor op a b least := by
  unfold placesFor Literal.hasFraction
  split
  · cases op <;> simp only [neededPlaces] <;> omega
  · next h =>
    simp only [Bool.or_eq_true, decide_eq_true_eq, not_or] at h
    cases op <;> simp only [neededPlaces] <;> omega

/-- A quotient keeps the least number of places asked for. -/
theorem placesFor_divide (a b : Literal) (least : Nat) : placesFor .divide a b least = least := by
  unfold placesFor
  split <;> rfl

theorem hasPlaces_add (a b : Literal) : HasPlaces (a.value + b.value) (neededPlaces .plus a b) :=
  (a.hasPlaces_value.mono (Nat.le_max_left _ _)).add (b.hasPlaces_value.mono (Nat.le_max_right _ _))

theorem hasPlaces_sub (a b : Literal) : HasPlaces (a.value - b.value) (neededPlaces .minus a b) :=
  (a.hasPlaces_value.mono (Nat.le_max_left _ _)).sub (b.hasPlaces_value.mono (Nat.le_max_right _ _))

theorem hasPlaces_mul (a b : Literal) : HasPlaces (a.value * b.value) (neededPlaces .times a b) :=
  a.hasPlaces_value.mul b.hasPlaces_value

/-! ### The exact backend -/

/-- The exact backend computes on the values of the literals. -/
theorem applyExact_eq (op : Operator) (a b : Literal) (places : Nat) :
    Backend.applyExact op a b places =
      match Backend.applyRat op a.value b.value with
      | .ok r => .ok (.exact (normalize (ofRat r places)))
      | .error e => .error e := by
  cases happly : Backend.applyRat op a.value b.value <;>
    simp only [Backend.applyExact, Literal.toRat?_flat, happly]

/-- A result whose places are all kept is written in full. -/
theorem isCanonicalText_of_hasPlaces {r : ℚ} {op : Operator} {a b : Literal}
    (h : HasPlaces r (neededPlaces op a b)) (least : Nat) :
    IsCanonicalText (normalize (ofRat r (placesFor op a b least))) r := by
  have hcut := (h.mono (neededPlaces_le_placesFor op a b least)).cut_eq
  have htext := isCanonicalText_ofRat r (placesFor op a b least)
  rwa [hcut] at htext

/-- **The exact backend writes the canonical text of the exact result**, a quotient being cut to the
least number of places asked for. -/
theorem exists_applyExact (op : Operator) (a b : Literal) (least : Nat)
    (hdivide : op = .divide → b.value ≠ 0) :
    ∃ t r, Machine.compute? least op a.value b.value = some r ∧
      Backend.applyExact op a b (placesFor op a b least) = .ok (.exact t) ∧
      IsCanonicalText t r := by
  cases op with
  | plus =>
    exact ⟨_, a.value + b.value, rfl, applyExact_eq .plus a b _,
      isCanonicalText_of_hasPlaces (hasPlaces_add a b) least⟩
  | minus =>
    exact ⟨_, a.value - b.value, rfl, applyExact_eq .minus a b _,
      isCanonicalText_of_hasPlaces (hasPlaces_sub a b) least⟩
  | times =>
    exact ⟨_, a.value * b.value, rfl, applyExact_eq .times a b _,
      isCanonicalText_of_hasPlaces (hasPlaces_mul a b) least⟩
  | divide =>
    have hne := hdivide rfl
    refine ⟨normalize (ofRat (a.value / b.value) least), cut (a.value / b.value) least, ?_, ?_,
      isCanonicalText_ofRat _ _⟩
    · rw [Machine.compute?, if_neg hne]
    · rw [applyExact_eq, placesFor_divide, Backend.applyRat, if_neg hne]

/-! ### The exact engine -/

namespace Engine

/-- An exact engine writes the canonical text of the exact result. -/
theorem exists_operate_exact (engine : Engine) (hexact : engine.backend = .exact) {op : Operator}
    (hop : op ∈ engine.operators) {a b : String} {x y : Literal}
    (ha : Literal.parse? a = some x) (hb : Literal.parse? b = some y)
    (hdivide : op = .divide → y.value ≠ 0) :
    ∃ t r, Machine.compute? engine.precision op x.value y.value = some r ∧
      engine.operate (some a) (some b) op.symbol = .ok (.exact t) ∧ IsCanonicalText t r := by
  obtain ⟨t, r, hr, ht, hcanonical⟩ := exists_applyExact op x y engine.precision hdivide
  refine ⟨t, r, hr, ?_, hcanonical⟩
  have hzero : ¬(op = .divide && y.isZero) = true := by
    rw [Bool.and_eq_true, decide_eq_true_iff, Literal.isZero_iff]
    rintro ⟨hop, hy⟩
    exact hdivide hop hy
  rw [operate_eq_apply hop ha hb, if_neg hzero, hexact]
  exact ht

/-- A result of an exact engine is the canonical text of some number. -/
theorem isCanonicalText_of_operate (engine : Engine) (hexact : engine.backend = .exact)
    {a b : Option String} {symbol : String} {v : Value} (h : engine.operate a b symbol = .ok v) :
    ∃ t r, v = .exact t ∧ IsCanonicalText t r := by
  obtain ⟨op, hop, s, t, x, y, rfl, rfl, rfl, hx, hy, hzero, -⟩ := exists_of_operate_eq_ok h
  have hdivide : op = .divide → y.value ≠ 0 := by
    intro hop hy
    rw [← Literal.isZero_iff, hzero hop] at hy
    cases hy
  obtain ⟨text, r, -, htext, hcanonical⟩ := engine.exists_operate_exact hexact hop hx hy hdivide
  rw [htext] at h
  exact ⟨text, r, (Except.ok.inj h).symm, hcanonical⟩

/-- **Every result of an exact engine is the canonical text of the exact result.**  A sum, a
difference and a product keep every digit at any precision; a quotient by a number other than zero
is cut to the precision.  So two results, of whichever exact engines, have equal texts exactly when
they are equal numbers. -/
theorem operate_exact_isCanonicalText (config : Config) (hexact : config.backend = .exact) :
    (∀ op ∈ config.operators, ∀ (a b : String) (x y : Literal),
      Literal.parse? a = some x → Literal.parse? b = some y → (op = .divide → y.value ≠ 0) →
      ∃ t r, Machine.compute? (min config.precision maxPrecision) op x.value y.value = some r ∧
        (ofConfig config).operate (some a) (some b) op.symbol = .ok (.exact t) ∧
        IsCanonicalText t r) ∧
    ∀ (config' : Config) (a b a' b' : Option String) (symbol symbol' t t' : String),
      config'.backend = .exact →
      (ofConfig config).operate a b symbol = .ok (.exact t) →
      (ofConfig config').operate a' b' symbol' = .ok (.exact t') →
      ∃ r r', toRat? t = some r ∧ toRat? t' = some r' ∧ (t = t' ↔ r = r') := by
  constructor
  · intro op hop a b x y ha hb hdivide
    exact (ofConfig config).exists_operate_exact hexact hop ha hb hdivide
  · intro config' a b a' b' symbol symbol' t t' hexact' h h'
    obtain ⟨_, r, ht, hcanonical⟩ :=
      (ofConfig config).isCanonicalText_of_operate hexact h
    obtain ⟨_, r', ht', hcanonical'⟩ :=
      (ofConfig config').isCanonicalText_of_operate hexact' h'
    cases ht
    cases ht'
    refine ⟨r, r', hcanonical.toRat?_eq, hcanonical'.toRat?_eq, fun heq => ?_, fun heq => ?_⟩
    · have hread := hcanonical.toRat?_eq
      rw [heq, hcanonical'.toRat?_eq] at hread
      exact (Option.some.inj hread).symm
    · rw [← heq] at hcanonical'
      exact hcanonical.unique hcanonical'

/-- Minus a third at two places and at three, which are different numbers. -/
theorem operate_exact_isCanonicalText_third :
    (ofConfig { precision := 2 }).operate (some "1") (some "-3e0") "/" = .ok (.exact "-0.33") ∧
      IsCanonicalText "-0.33" (-33 / 100) ∧
    (ofConfig { precision := 3 }).operate (some "1") (some "-3e0") "/" = .ok (.exact "-0.333") ∧
      ∃ r r', toRat? "-0.33" = some r ∧ toRat? "-0.333" = some r' ∧
        ("-0.33" = "-0.333" ↔ r = r') ∧ r ≠ r' := by
  have h := operate_exact_isCanonicalText { precision := 2 } rfl
  obtain ⟨t, r, hr, ht, hcanonical⟩ := h.1 .divide (by decide) "1" "-3e0"
    ⟨false, [1], none, none, by decide⟩
    ⟨true, [3], none, some ⟨false, none, [0], by decide, by decide⟩, by decide⟩
    (by decide) (by decide) (fun _ => by decide +kernel)
  have hvalue : (ofConfig { precision := 2 }).operate (some "1") (some "-3e0") "/" =
      .ok (.exact "-0.33") := by decide +kernel
  have hvalue' : (ofConfig { precision := 3 }).operate (some "1") (some "-3e0") "/" =
      .ok (.exact "-0.333") := by decide +kernel
  have hthird : r = -33 / 100 := by
    refine Option.some.inj (hr.symm.trans ?_)
    decide +kernel
  have htext : t = "-0.33" := by
    change (ofConfig { precision := 2 }).operate (some "1") (some "-3e0") "/" = _ at ht
    rw [hvalue] at ht
    cases ht
    rfl
  subst hthird htext
  obtain ⟨r, r', hread, hread', hiff⟩ := h.2 { precision := 3 } (some "1") (some "-3e0") (some "1")
    (some "-3e0") "/" "/" "-0.33" "-0.333" rfl hvalue hvalue'
  exact ⟨hvalue, hcanonical, hvalue', r, r', hread, hread', hiff, mt hiff.mpr (by decide)⟩

end Engine

end PostfixCalculator
