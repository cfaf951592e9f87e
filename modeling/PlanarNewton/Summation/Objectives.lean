import PlanarNewton.Equations
import PlanarNewton.Summation.Polygamma

/-!
# The summation system

Two equations in `a` and `b` whose left sides are long sums,

* `F = ∑ b / (a + i) - c₁`
* `G = ∑ 1 / (a + b + i)² - c₂`

with `i` from 1 to `terms`. Each function comes as the sum itself and in a closed form by the digamma
and trigamma functions. The constants belong to the solution `a = 10000`, `b = 0.01`.
-/

namespace PlanarNewton.Summation

open Polygamma

/-- The number of terms of each sum. -/
def terms : Nat := 123456

/-- The number of terms as a double. -/
def termsFloat : Float := 123456.0

/-- What the sum in `F` comes to at the solution. -/
def c1 : Float := 0.025911404898870522

/-- What the sum in `G` comes to at the solution. -/
def c2 : Float := 9.25018224693155e-5

/-- Adds the next `left` terms to a sum, from term `i` on. -/
@[specialize]
def sumFrom (term : Float → Float) : Nat → UInt64 → Float → Float
  | 0, _, sum => sum
  | left + 1, i, sum => sumFrom term left (i + 1) (sum + term i.toFloat)

/-- The sum of the terms 1 to `terms`, in this order; an empty sum is the negative zero. -/
@[inline]
def sum (term : Float → Float) : Float :=
  sumFrom term terms 1 (-0.0)

/-- `F`, term by term. -/
def objective1Iterative (p : Vec2 Float) : Float :=
  sum (fun i => p.y / (p.x + i)) - c1

/-- `G`, term by term. -/
def objective2Iterative (p : Vec2 Float) : Float :=
  let ab := p.x + p.y
  sum (fun i => let t := ab + i; 1.0 / (t * t)) - c2

/-- `∂F/∂a`, term by term. -/
def derivative11Iterative (p : Vec2 Float) : Float :=
  sum fun i => let t := p.x + i; -p.y / (t * t)

/-- `∂F/∂b`, term by term. -/
def derivative12Iterative (p : Vec2 Float) : Float :=
  sum fun i => 1.0 / (p.x + i)

/-- `∂G/∂a`, which is also `∂G/∂b`, term by term. -/
def derivative2Iterative (p : Vec2 Float) : Float :=
  sum fun i => let t := p.x + p.y + i; -2.0 / (t * t * t)

/-- `F` in closed form. -/
def objective1Closed (p : Vec2 Float) : Float :=
  p.y * (digamma (p.x + termsFloat + 1.0) - digamma (p.x + 1.0)) - c1

/-- `G` in closed form. -/
def objective2Closed (p : Vec2 Float) : Float :=
  let ab := p.x + p.y
  trigamma (ab + 1.0) - trigamma (ab + termsFloat + 1.0) - c2

/-- `∂F/∂a` in closed form. -/
def derivative11Closed (p : Vec2 Float) : Float :=
  p.y * (trigamma (p.x + termsFloat + 1.0) - trigamma (p.x + 1.0))

/-- `∂F/∂b` in closed form. -/
def derivative12Closed (p : Vec2 Float) : Float :=
  digamma (p.x + termsFloat + 1.0) - digamma (p.x + 1.0)

/-- Both objectives and their derivatives in one pass; those of `G` are estimated by differences. -/
def master (p : Vec2 Float) : Evaluation Float :=
  let a := p.x
  let b := p.y
  let val0 := digamma (a + termsFloat + 1.0) - digamma (a + 1.0)
  let val1 := trigamma (a + b + 1.0) - trigamma (a + b + termsFloat + 1.0)
  let val2 := b * (trigamma (a + termsFloat + 1.0) - trigamma (a + 1.0))
  { objective := ⟨b * val0 - c1, val1 - c2⟩
    jacobian := ⟨val2, val0, centralDifference .x Difference.defaultStep objective2Closed p,
      centralDifference .y Difference.defaultStep objective2Closed p⟩ }

/-- The system of the sums with their derivatives. -/
def iterativeSystem {μ : Type} : Equations Float μ :=
  .ofDerivatives objective1Iterative objective2Iterative derivative11Iterative
    derivative12Iterative derivative2Iterative derivative2Iterative

/-- The system of the closed forms, the derivatives of `G` estimated by differences. -/
def closedSystem {μ : Type} : Equations Float μ :=
  .ofDerivatives objective1Closed objective2Closed derivative11Closed derivative12Closed
    (centralDifference .x Difference.defaultStep objective2Closed)
    (centralDifference .y Difference.defaultStep objective2Closed)

/-- The system of the sums from the master function. -/
def masterSystem {μ : Type} : Equations Float μ :=
  .ofFunction master

/-- The system restricted to where the sums are defined: `a > -1` and `a + b > -1`. -/
def withDomain {μ : Type} (s : Equations Float μ) : Equations Float μ :=
  (s.constrain fun p => p.x > -1.0).constrain fun p => p.x + p.y > -1.0

end PlanarNewton.Summation
