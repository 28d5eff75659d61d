import PostfixCalculator.Binary64.Basic
import PostfixCalculator.Literal.Value

/-!
# Reading a literal as a binary floating-point number

## Main definitions

* `Binary64.ofLiteral` — the number nearest to a literal.
* `Binary64.parse?` — the number nearest to the literal that a text is.
-/

namespace PostfixCalculator.Binary64

/-- The number nearest to the value of a literal.  A literal too large becomes infinite, one too
small becomes a zero of its sign. -/
def ofLiteral (n : Literal) : Binary64 := ofRatio n.negative n.magnitudeNum n.magnitudeDen

/-- The number nearest to the literal that a text is, if it is one. -/
def parse? (text : String) : Option Binary64 := (Literal.parse? text).map ofLiteral

end PostfixCalculator.Binary64
