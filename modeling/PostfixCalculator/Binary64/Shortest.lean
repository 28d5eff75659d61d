import PostfixCalculator.Binary64.Basic
import PostfixCalculator.Numeral

/-!
# The shortest decimal of a binary floating-point number

A number is written with the fewest digits that read back to it.  The reals that round to a number
form an interval, from half-way to the neighbour below to half-way to the neighbour above, and the
ends belong to it when the number's rank is even.  Of all grids of multiples of a power of ten the
coarsest with a point in the interval is taken, and on it the point nearest to the number; of two
equally near ones it is the upper.

The number is then written in full, never with an exponent.

## Main definitions

* `Binary64.readsBack rank a p` — the decimal `a * 10 ^ p` lies in the interval of the rank.
* `Binary64.gridPoint? rank p` — the point of the grid `10 ^ p` that is chosen, if it has one.
* `Binary64.shortest rank` — the decimal chosen, as digits and an exponent of ten.
* `Binary64.text` — the text of a number.
-/

namespace PostfixCalculator.Binary64

-- Powers of natural numbers are those of core here, whichever other instances are in scope.
attribute [local instance (2000)] instPowNat

/-- Compares `a * 10 ^ p` with the middle of the magnitudes of two ranks, by cross-multiplying. -/
def compareToMiddle (a : Nat) (p : Int) (rank rank' : Nat) : Ordering :=
  compare (a * 10 ^ p.toNat * (2 * unitsPerOne)) ((unitsAt rank + unitsAt rank') * 10 ^ (-p).toNat)

/-- Whether the decimal `a * 10 ^ p` is among the reals that round to the magnitude of the given
positive rank. -/
def readsBack (rank a : Nat) (p : Int) : Bool :=
  let below := compareToMiddle a p (rank - 1) rank
  let above := compareToMiddle a p rank (rank + 1)
  let closed := rank % 2 = 0
  (below = .gt || closed && below = .eq) && (above = .lt || closed && above = .eq)

/-- The number of steps of size `10 ^ p` from zero up to the magnitude of the given rank, rounded
down. -/
def gridFloor (rank : Nat) (p : Int) : Nat :=
  unitsAt rank * 10 ^ (-p).toNat / (unitsPerOne * 10 ^ p.toNat)

/-- Whether the magnitude of the given rank lies below the middle of the grid points `a * 10 ^ p`
and `(a + 1) * 10 ^ p`. -/
def nearerBelow (rank a : Nat) (p : Int) : Bool :=
  2 * unitsAt rank * 10 ^ (-p).toNat < (2 * a + 1) * 10 ^ p.toNat * unitsPerOne

/-- The point of the grid `10 ^ p` that reads back to the given rank, the nearer one if there are
two and the upper one if they are equally near. -/
def gridPoint? (rank : Nat) (p : Int) : Option Nat :=
  let a := gridFloor rank p
  match readsBack rank a p, readsBack rank (a + 1) p with
  | true, true => some (if nearerBelow rank a p then a else a + 1)
  | true, false => some a
  | false, true => some (a + 1)
  | false, false => none

/-- A power of ten that the magnitude of a positive rank does not exceed.  The factor is a little
more than the decimal logarithm of two. -/
def ceilingPower (rank : Nat) : Int := ((unitsAt rank).log2 - 1073 : Int) * 30103 / 100000 + 1

/-- The shortest decimal that reads back to the given positive rank, as digits and a power of ten.
Seventeen digits are always enough; the grids searched go somewhat further. -/
def shortest (rank : Nat) : Nat × Int :=
  let found := (List.range 20).findSome? fun (k : Nat) =>
    let p := ceilingPower rank - k
    (gridPoint? rank p).map fun a => (a, p)
  found.getD (0, 0)

/-- The characters of `a * 10 ^ p`, written in full. -/
def fullChars (a : Nat) (p : Int) : List Char :=
  let ds := Numeral.text (Numeral.ofNat a)
  let places := (-p).toNat
  if 0 ≤ p then ds ++ List.replicate p.toNat '0'
  else if places < ds.length then
    ds.take (ds.length - places) ++ '.' :: ds.drop (ds.length - places)
  else '0' :: '.' :: (List.replicate (places - ds.length) '0' ++ ds)

/-- The characters of a magnitude. -/
def magnitudeChars (rank : Nat) : List Char :=
  if rank = 0 then ['0']
  else if rank = infinityRank then ['i', 'n', 'f']
  else fullChars (shortest rank).1 (shortest rank).2

/-- The text of a number: the shortest decimal that reads back, in full, after the sign. -/
def text (x : Binary64) : String :=
  String.ofList ((if x.negative then ['-'] else []) ++ magnitudeChars x.rank)

end PostfixCalculator.Binary64
