/-!
# Binary floating-point numbers of 64 bits

The numbers of the binary interchange format of 64 bits, without those that stand for no number.
The non-negative ones, infinity included, lie in a row and are counted from zero: `rank` is the
place of a magnitude in that row.  It is at the same time the pattern of the 63 low bits, so that
encoding is an addition, and the neighbours of a number are those of its rank.

Every finite magnitude is a whole number of *units* of `2 ^ -1074`, the least positive one.  All
arithmetic is done on units, exactly, and rounded once.

## Main definitions

* `Binary64` — a sign and a rank.
* `Binary64.units` — the magnitude in units.
* `Binary64.value` — the rational number that a finite one denotes.
* `Binary64.roundRank num den` — the rank of the magnitude nearest to `num / den` units, of two
  nearest ones that with the even rank.
* `Binary64.toBits` — the 64 bits.

## Main results

* `roundDiv_cases` — a rounded quotient is within half a unit of the exact one.
-/

namespace PostfixCalculator

-- Powers of natural numbers are those of core here, whichever other instances are in scope.
attribute [local instance (2000)] instPowNat

/-- The number of bits of the fraction.  From one power of two to the next there are
`2 ^ fractionBits` ranks. -/
abbrev Binary64.fractionBits : Nat := 52

/-- The number of binary places of a unit. -/
abbrev Binary64.unitPlaces : Nat := 1074

/-- The place of the sign bit. -/
abbrev Binary64.signPlace : Nat := 63

/-- The rank of infinity: the bits of the exponent are set and those of the fraction are clear. -/
def Binary64.infinityRank : Nat := 2047 * 2 ^ fractionBits

/-- A binary floating-point number of 64 bits: finite of either sign, or infinite. -/
structure Binary64 where
  /-- The sign bit is set. -/
  negative : Bool
  /-- The place among the non-negative numbers, from zero to infinity. -/
  rank : Nat
  rank_le : rank ≤ Binary64.infinityRank
  deriving DecidableEq

namespace Binary64

/-- Whether a number is finite. -/
def isFinite (x : Binary64) : Bool := x.rank < infinityRank

/-- Whether a number is a zero of either sign. -/
def isZero (x : Binary64) : Bool := x.rank = 0

/-- The zero with the given sign. -/
def zero (negative : Bool) : Binary64 := ⟨negative, 0, Nat.zero_le _⟩

/-- The infinity with the given sign. -/
def infinity (negative : Bool) : Binary64 := ⟨negative, infinityRank, Nat.le_refl _⟩

/-- A number with its sign turned. -/
def neg (x : Binary64) : Binary64 := { x with negative := !x.negative }

/-- The 64 bits of a number, as a natural number. -/
def toBits (x : Binary64) : Nat := (if x.negative then 2 ^ signPlace else 0) + x.rank

/-! ### Magnitudes -/

/-- The magnitude of the given rank, in units.  The row goes on past the largest finite magnitude
in the same way, so that the rank of infinity has the magnitude `2 ^ 1024`. -/
def unitsAt (rank : Nat) : Nat :=
  if rank < 2 ^ fractionBits then rank
  else (2 ^ fractionBits + rank % 2 ^ fractionBits) * 2 ^ (rank / 2 ^ fractionBits - 1)

/-- The magnitude of a number, in units. -/
def units (x : Binary64) : Nat := unitsAt x.rank

/-- The number of units, with its sign. -/
def signedUnits (x : Binary64) : Int := if x.negative then -(x.units : Int) else x.units

/-- The number of units in one. -/
def unitsPerOne : Nat := 2 ^ unitPlaces

/-- The rational number that a finite number denotes. -/
def value (x : Binary64) : Rat := mkRat x.signedUnits unitsPerOne

/-! ### Rounding -/

/-- The whole number nearest to `num / den`, of two nearest ones the even one. -/
def roundDiv (num den : Nat) : Nat :=
  let q := num / den
  let r := num % den
  if 2 * r < den then q else if den < 2 * r then q + 1 else q + q % 2

/-- How many binary places of `num / den` units lie below those that a magnitude keeps, which are
one more than there are bits of the fraction. -/
def droppedPlaces (num den : Nat) : Nat := (num / den).log2 - fractionBits

/-- The rank of the magnitude nearest to `num / den` units, as if the row had no end. -/
def roundRank (num den : Nat) : Nat :=
  let dropped := droppedPlaces num den
  dropped * 2 ^ fractionBits + roundDiv num (den * 2 ^ dropped)

/-- The number nearest to `num / den` units with the given sign; infinity takes the place of all
that lies past the largest finite magnitude. -/
def ofUnits (negative : Bool) (num den : Nat) : Binary64 :=
  ⟨negative, min (roundRank num den) infinityRank, Nat.min_le_right _ _⟩

/-- The number nearest to `num / den` with the given sign. -/
def ofRatio (negative : Bool) (num den : Nat) : Binary64 :=
  ofUnits negative (num * unitsPerOne) den

/-- A rounded quotient is the quotient or the next number, and within half of `den` either way. -/
theorem roundDiv_cases (num den : Nat) :
    (roundDiv num den = num / den ∧ 2 * (num % den) ≤ den) ∨
      (roundDiv num den = num / den + 1 ∧ den ≤ 2 * (num % den)) := by
  unfold roundDiv
  dsimp only
  split
  · exact .inl ⟨rfl, by omega⟩
  · split
    · exact .inr ⟨rfl, by omega⟩
    · rcases Nat.mod_two_eq_zero_or_one (num / den) with h | h
      · exact .inl ⟨by omega, by omega⟩
      · exact .inr ⟨by omega, by omega⟩

end Binary64

end PostfixCalculator
