import PlanarNewton.Binary64.Basic

/-!
# Scalars

The arithmetic that vectors, matrices and difference quotients are written over. `Float` is the
arithmetic the solver runs on, rounded and with special values; `Rat` is the exact arithmetic in which
the same formulas can be reasoned about without rounding.
-/

namespace PlanarNewton

/--
An arithmetic with the comparisons that the linear algebra makes. `larger` is the larger of two
magnitudes and `epsilon` the relative size below which a difference counts as rounding noise.
-/
class Scalar (α : Type) extends Add α, Sub α, Mul α, Div α, Neg α where
  two : α
  epsilon : α
  abs : α → α
  larger : α → α → α
  le : α → α → Bool
  isFinite : α → Bool

namespace Scalar

/-- Doubles, with the operations of the hardware. -/
instance : Scalar Float where
  two := 2.0
  epsilon := Binary64.epsilon
  abs := Float.abs
  larger := Binary64.larger
  le x y := x ≤ y
  isFinite := Float.isFinite

/-- Rationals, which do not round, and are all finite. -/
instance : Scalar Rat where
  two := Rat.ofInt 2
  epsilon := mkRat 1 4503599627370496
  abs x := mkRat x.num.natAbs x.den
  larger x y := if x.blt y then y else x
  le x y := !y.blt x
  isFinite _ := true

end Scalar

end PlanarNewton
