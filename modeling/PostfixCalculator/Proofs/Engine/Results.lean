import PostfixCalculator.Proofs.Binary64.Text
import PostfixCalculator.Proofs.Engine.Exact
import PostfixCalculator.Proofs.Token

/-!
# Results are literals

Whatever an engine computes, the text of the result is a literal again, so it can stand among the
numbers of a stack.  An exact result is a canonical text.  An approximate one is a finite number cut
to its places, which leaves it finite, and the text of a finite number is a spelling.

## Main results

* `Backend.isFinite_of_applyApproximate` — an approximate result is finite.
* `Engine.isNumeric_of_operate` — the text of a result is a literal.
-/

namespace PostfixCalculator

open Decimal

/-- A text that denotes a number is numeric. -/
theorem Denotes.isNumeric {text : String} {r : ℚ} (h : Denotes text r) : isNumeric text = true := by
  obtain ⟨n, hn, -⟩ := h
  exact isNumeric_iff.mpr ⟨n, hn⟩

/-- The plain form of the text of a finite number denotes what the text does. -/
theorem Binary64.denotes_normalize_text {x : Binary64} (h : x.isFinite = true) :
    Denotes (normalize x.text) x.spelling.value := by
  rw [text_eq_text_spelling h, Spelling.normalize_text, ← Spelling.value_normal]
  exact Spelling.denotes_text x.spelling.isPlain_normal.hasDigit

namespace Backend

theorem isFinite_of_applyBinary64 {op : Operator} {x y r : Binary64}
    (h : applyBinary64 op x y = .ok r) : r.isFinite = true := by
  unfold applyBinary64 at h
  split at h
  · cases h
  · dsimp only at h
    split at h
    · split at h
      · next hfinite =>
        cases h
        exact hfinite
      · cases h
    · cases h

/-- A finite result is not lost in the cut to its places. -/
theorem exists_applyApproximate {op : Operator} {a b : Literal} {r : Binary64}
    (h : applyBinary64 op (.ofLiteral a) (.ofLiteral b) = .ok r) (places : Nat) :
    ∃ x, applyApproximate op a b places = .ok (.approximate x) ∧ x.isFinite = true := by
  obtain ⟨x, hx, hfinite⟩ := Binary64.exists_parse?_truncate (isFinite_of_applyBinary64 h) places
  have htruncate : truncate? r places = some x := hx
  refine ⟨x, ?_, hfinite⟩
  rw [applyApproximate, h]
  dsimp only
  rw [htruncate]

/-- **An approximate result is finite**, also after the cut to its places. -/
theorem isFinite_of_applyApproximate {op : Operator} {a b : Literal} {places : Nat} {v : Value}
    (h : applyApproximate op a b places = .ok v) :
    ∃ x, v = .approximate x ∧ x.isFinite = true := by
  rcases hr : applyBinary64 op (.ofLiteral a) (.ofLiteral b) with e | r
  · rw [applyApproximate, hr] at h
    cases h
  · obtain ⟨x, hx, hfinite⟩ := exists_applyApproximate hr places
    rw [hx] at h
    exact ⟨x, (Except.ok.inj h).symm, hfinite⟩

end Backend

/-- **The text of a result is a literal**, whichever way it was computed. -/
theorem Engine.isNumeric_of_operate {engine : Engine} {a b : Option String} {symbol : String}
    {v : Value} (h : engine.operate a b symbol = .ok v) : isNumeric v.text = true := by
  rcases hbackend : engine.backend with _ | _
  · obtain ⟨t, r, rfl, hcanonical⟩ := engine.isCanonicalText_of_operate hbackend h
    exact hcanonical.denotes.isNumeric
  · obtain ⟨op, -, s, t, x, y, -, -, -, -, -, -, happly⟩ := exists_of_operate_eq_ok h
    rw [hbackend] at happly
    obtain ⟨cut, rfl, hfinite⟩ := Backend.isFinite_of_applyApproximate happly
    exact (Binary64.denotes_normalize_text hfinite).isNumeric

end PostfixCalculator
