import PlanarNewton.Binary64.Basic

/-!
# The natural logarithm

`ln x` encloses the logarithm of `x = z * 2 ^ k` between two integers on a binary grid, from
`ln x = k * ln 2 + 2 * artanh ((z - 1) / (z + 1))`, and rounds as soon as both ends of the enclosure
round to one double. Finer grids are tried until that happens. The logarithm of a double other than 1
is irrational, so it never sits on a boundary between two doubles and some grid decides it.
-/

namespace PlanarNewton.Binary64

open Float.Model

/-- A real number between `low * 2 ^ -p` and `high * 2 ^ -p`, where the precision `p` is known. -/
structure Enclosure where
  low : Int
  high : Int

namespace Enclosure

/-- Encloses the sum of two enclosed numbers. -/
def add (a b : Enclosure) : Enclosure :=
  ⟨a.low + b.low, a.high + b.high⟩

/-- Encloses the negative of an enclosed number. -/
def neg (a : Enclosure) : Enclosure :=
  ⟨-a.high, -a.low⟩

/-- Encloses an integer multiple of an enclosed number. -/
def scale (k : Int) (a : Enclosure) : Enclosure :=
  if 0 ≤ k then ⟨k * a.low, k * a.high⟩ else ⟨k * a.high, k * a.low⟩

/--
The double that every number of the enclosure rounds to, if the enclosure decides one: both ends then
agree, without zero between them, on 54 leading bits, and a number strictly between two such grid
points rounds like their midpoint.
-/
def round? (p : Nat) (a : Enclosure) : Option Float :=
  let (sign, low, high) :=
    if 0 < a.low then (UnpackedFloat.Sign.positive, a.low.toNat, a.high.toNat)
    else (.negative, (-a.high).toNat, (-a.low).toNat)
  let drop := low.log2 - 53
  let lead := low >>> drop
  if drop = 0 ∨ lead ≠ high >>> drop then none
  else
    some (.ofModel (.pack
      (UnpackedFloat.round Format.binary64 sign (2 * lead + 1) ((drop : Int) - 1 - p))))

end Enclosure

/--
Adds `t / k + t * q / (k + 2) + …` on the grid of precision `p`, each term rounded down, until a term
vanishes; returns the sum and the number of terms.
-/
def oddSeries (p q : Nat) : Nat → Nat → Nat → Nat → Nat × Nat
  | 0, k, _, sum => (sum, k)
  | fuel + 1, k, t, sum =>
    if t = 0 then (sum, k)
    else oddSeries p q fuel (k + 2) ((t * q) >>> p) (sum + t / k)

/--
Encloses `2 * artanh (a / b)` for `0 ≤ 3 * a ≤ b`. Every term loses less than three grid units to
rounding down, and the terms left out are together below two.
-/
def twiceArtanh (p a b : Nat) : Enclosure :=
  let t := (a <<< p) / b
  let (sum, k) := oddSeries p ((t * t) >>> p) p 1 t 0
  ⟨2 * sum, 2 * (sum + 3 * k + 3)⟩

/-- The precisions tried one after the other, each with an enclosure of `ln 2`. -/
def grids : List (Nat × Enclosure) :=
  [128, 256, 512, 1024].map fun p => (p, twiceArtanh p 1 3)

/--
Encloses `ln (m * 2 ^ e)` on the grid of precision `p`. The factor that remains beside the power of two
below or above `m` lies between 2/3 and 4/3.
-/
def encloseLn (p : Nat) (ln2 : Enclosure) (m : Nat) (e : Int) : Enclosure :=
  let n := m.log2
  let below : Nat := 1 <<< n
  let above : Nat := 1 <<< (n + 1)
  if 3 * m ≤ 4 * below then
    (ln2.scale (e + n)).add (twiceArtanh p (m - below) (m + below))
  else
    (ln2.scale (e + n + 1)).add (twiceArtanh p (above - m) (above + m)).neg

/-- The natural logarithm, rounded to the nearest double. -/
def ln (x : Float) : Float :=
  match x.toModel.unpack with
  | .infinity .positive => infinity
  | .zero _ => -infinity
  | .finite .positive m e _ =>
    if x == 1.0 then 0.0
    else (grids.findSome? fun (p, ln2) => (encloseLn p ln2 m e).round? p).getD nan
  | _ => nan

end PlanarNewton.Binary64
