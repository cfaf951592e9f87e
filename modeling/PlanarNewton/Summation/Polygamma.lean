import PlanarNewton.Binary64.Logarithm

/-!
# Digamma and trigamma

Both functions are raised by their recurrence to an argument of at least ten and evaluated there by
their asymptotic series. The recurrence adds one until the argument reaches ten. An argument far below
ten may be so large in magnitude that adding one does not change it; from there the recurrence never
ends, and the functions have no value.
-/

namespace PlanarNewton.Polygamma

/-- The argument at which the series take over. -/
def threshold : Float := 10.0

/-- The sum so far and the argument that is reached. -/
structure Climb where
  sum : Float
  x : Float

/--
Adds one to the argument until it reaches the threshold, and folds a term for each argument on the way
into the sum. There is no result if it never gets there.
-/
@[specialize]
def Climb.finish (term : Float → Float → Float) (c : Climb) : Option Climb :=
  if c.x < threshold then Climb.mk (term c.sum c.x) (c.x + 1.0) |>.finish term else some c
partial_fixpoint

/-- The recurrence from `x` on: what becomes of `sum`, and the argument at the threshold. -/
@[inline]
def climb (term : Float → Float → Float) (sum x : Float) : Option (Float × Float) :=
  (Climb.mk sum x).finish term |>.map fun c => (c.sum, c.x)

/-- The digamma function where its recurrence ends. -/
def digamma? (x : Float) : Option Float :=
  (climb (fun sum x => sum - 1.0 / x) 0.0 x).map fun (sum, x) =>
    let inv := 1.0 / x
    let inv2 := inv * inv
    sum + Binary64.ln x - 0.5 * inv - inv2 * (1.0 / 12.0 - inv2 * (1.0 / 120.0 -
      inv2 * (1.0 / 252.0 - inv2 * (1.0 / 240.0 - inv2 / 132.0))))

/-- The trigamma function where its recurrence ends. -/
def trigamma? (x : Float) : Option Float :=
  (climb (fun sum x => sum + 1.0 / (x * x)) 0.0 x).map fun (sum, x) =>
    let inv := 1.0 / x
    let inv2 := inv * inv
    sum + inv + 0.5 * inv2 + inv * inv2 * (1.0 / 6.0 - inv2 * (1.0 / 30.0 -
      inv2 * (1.0 / 42.0 - inv2 * (1.0 / 30.0 - inv2 * 5.0 / 66.0))))

/-- The digamma function; NaN where it has no value. -/
def digamma (x : Float) : Float :=
  (digamma? x).getD Binary64.nan

/-- The trigamma function; NaN where it has no value. -/
def trigamma (x : Float) : Float :=
  (trigamma? x).getD Binary64.nan

end PlanarNewton.Polygamma
