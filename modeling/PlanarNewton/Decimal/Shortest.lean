/-!
# Shortest decimals

The decimal with the fewest digits among those that read back as a given double, and of these the one
nearest to it; of two that are equally near, the larger. The search looks at one decimal grid after
the other, from coarse to fine, in exact arithmetic on natural numbers. On each grid only the two
neighbours of the double have to be looked at.
-/

namespace PlanarNewton

/-- The number `significand * 10 ^ exponent`. -/
structure Decimal where
  significand : Nat
  exponent : Int
deriving DecidableEq, Repr

namespace Decimal

/--
The numbers that round to one positive double, in units of `2 ^ exponent`: all between `low` and
`high`, the ends included where `closed` is set. The double itself is `value`.
-/
structure Cell where
  low : Nat
  value : Nat
  high : Nat
  closed : Bool
  exponent : Int
deriving Repr

namespace Cell

/--
The cell of the double `m * 2 ^ e`. The gap below a power of two is half the gap above it, except at
the bottom of the range, and a number halfway between two doubles goes to the even one.
-/
def ofDouble (m : Nat) (e : Int) : Cell where
  low := if m = 1 <<< 52 ∧ -1074 < e then 4 * m - 1 else 4 * m - 2
  value := 4 * m
  high := 4 * m + 2
  closed := m % 2 = 0
  exponent := e - 2

/-- What the integers of the cell and of the decimal grid `10 ^ k` are multiplied by to be comparable. -/
def scales (c : Cell) (k : Int) : Nat × Nat :=
  (Nat.pow 10 (-k).toNat <<< c.exponent.toNat, Nat.pow 10 k.toNat <<< (-c.exponent).toNat)

/-- The multiplier of `10 ^ k` that lies in the cell and is nearest to the double, if there is one. -/
def nearest? (c : Cell) (k : Int) : Option Nat :=
  let (a, u) := c.scales k
  let d := c.value * a / u
  let fromBelow := if c.closed then c.low * a ≤ d * u else c.low * a < d * u
  let fromAbove := if c.closed then (d + 1) * u ≤ c.high * a else (d + 1) * u < c.high * a
  if fromBelow ∧ (2 * (c.value * a - d * u) < u ∨ ¬ fromAbove) then some d
  else if fromAbove then some (d + 1)
  else none

/-- The first hit on the grids `10 ^ k`, `10 ^ (k - 1)`, …; after the last of them what is below the double. -/
def search (c : Cell) : Nat → Int → Decimal
  | 0, k => ⟨c.value * (c.scales k).1 / (c.scales k).2, k⟩
  | fuel + 1, k =>
    match c.nearest? k with
    | some d => ⟨d, k⟩
    | none => search c fuel (k - 1)

end Cell

/--
The shortest decimal of the double `m * 2 ^ e`. The first grid is coarser than the double is large,
since `1233 / 4096` is just below the decimal logarithm of two; seventeen digits always suffice.
-/
def shortest (m : Nat) (e : Int) : Decimal :=
  (Cell.ofDouble m e).search 24 (((m.log2 : Int) + 1 + e) * 1233 / 4096 + 2)

end Decimal

end PlanarNewton
