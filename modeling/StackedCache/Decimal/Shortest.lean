import StackedCache.Decimal.Binary

/-!
# The fewest digits that read back

Every real number in a small interval around a float rounds to that float.  `shortest` picks the
decimal that lies in the interval and has the fewest digits, and of those the nearest one.  Two of
them can be equally near, with the float half way between; then a `Tie` decides.

A decimal with few digits is a point of a coarse grid, the multiples of some `10 ^ k`.  The search
therefore walks from coarse grids to fine ones.  If a grid has a point in the interval, then one of
the two grid points around the float is such a point, so two tests decide each grid.
-/

namespace StackedCache.Decimal

/-- The number `significand · 10 ^ exponent`. -/
structure Digits where
  significand : Nat
  exponent : Int
  deriving DecidableEq, Repr

namespace Digits

def text (d : Digits) : String := toString d.significand

def leading (d : Digits) : Int := d.exponent + (d.text.length : Int) - 1

end Digits

/-- Which of two neighbours on a grid stands for a number half way between them. -/
inductive Tie where
  /-- The one with an even last digit. -/
  | toEven
  /-- The larger one. -/
  | upward
  deriving DecidableEq, Repr

/-- Whether the lower neighbour is chosen, `below` steps from zero. -/
def Tie.choosesBelow : Tie → Nat → Bool
  | toEven, below => below % 2 = 0
  | upward, _ => false

/-- The interval of reals that round to a float, in quarters of the float's last bit. -/
structure Neighbourhood where
  low : Nat
  middle : Nat
  high : Nat
  /-- The two ends round to the float as well. -/
  closed : Bool

/-- The neighbourhood of `m · 2^q`.  Below a power of two the floats are twice as dense. -/
def neighbourhood (m : Nat) (q : Int) : Neighbourhood where
  low := if m = 2 ^ Binary.fractionBits ∧ Binary.leastExponent < q then 4 * m - 1 else 4 * m - 2
  middle := 4 * m
  high := 4 * m + 2
  closed := m % 2 = 0

/-- Whether `point / scale` lies in the neighbourhood. -/
def Neighbourhood.holds (n : Neighbourhood) (scale point : Nat) : Bool :=
  if n.closed then n.low * scale ≤ point && point ≤ n.high * scale
  else n.low * scale < point && point < n.high * scale

/-- The point of the grid `10 ^ k` that stands for `m · 2^q`, if the grid has one close enough. -/
def onGrid? (tie : Tie) (m : Nat) (q k : Int) : Option Nat :=
  let n := neighbourhood m q
  let scale := 2 ^ (q - 2).toNat * 10 ^ (-k).toNat
  let step := 2 ^ (2 - q).toNat * 10 ^ k.toNat
  let below := n.middle * scale / step
  let rest := n.middle * scale % step
  match n.holds scale (below * step), n.holds scale ((below + 1) * step) with
  | true, false => some below
  | false, true => some (below + 1)
  | true, true =>
      if 2 * rest < step || (2 * rest = step && tie.choosesBelow below) then some below
      else some (below + 1)
  | false, false => none

/-- The first grid at or below `10 ^ k` with a point close enough, among `tries` grids. -/
def coarsest (tie : Tie) (m : Nat) (q : Int) : Nat → Int → Digits
  | 0, _ => ⟨m * 5 ^ (-q).toNat * 2 ^ q.toNat, min q 0⟩
  | tries + 1, k =>
      match onGrid? tie m q k with
      | some point => ⟨point, k⟩
      | none => coarsest tie m q tries (k - 1)

/-- An exponent no power of ten of which fits below twice `m · 2^q`. -/
def gridAbove (m : Nat) (q : Int) : Int :=
  let bits := q + Nat.log2 m + 2
  if 0 ≤ bits then bits * 31 / 100 + 1 else bits * 30 / 100 + 1

/-- The digits of `m · 2^q` for `0 < m`: the fewest that read back, and of those the nearest. -/
def shortest (tie : Tie) (m : Nat) (q : Int) : Digits := coarsest tie m q 64 (gridAbove m q)

end StackedCache.Decimal
