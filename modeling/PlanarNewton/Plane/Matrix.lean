import PlanarNewton.Plane.Vector

/-!
# Matrices of the plane

A `Mat2` is the Jacobian of two equations, a row for each equation and a column for each coordinate.
`solve` answers by Cramer's rule, and only where the determinant is more than rounding noise.
-/

namespace PlanarNewton

/-- The matrix with the rows `a b` and `c d`. -/
structure Mat2 (α : Type) where
  a : α
  b : α
  c : α
  d : α
deriving DecidableEq, BEq, Repr

namespace Mat2

variable {α : Type} [Scalar α]

/-- The determinant, as the difference of two products. -/
def det (m : Mat2 α) : α :=
  m.a * m.d - m.b * m.c

/-- All entries are finite. -/
def isFinite (m : Mat2 α) : Bool :=
  Scalar.isFinite m.a && Scalar.isFinite m.b && Scalar.isFinite m.c && Scalar.isFinite m.d

/--
The determinant is not finite, or so small beside its two products that their difference is nothing
but rounding noise.
-/
def isSingular (m : Mat2 α) : Bool :=
  let scale := Scalar.larger (Scalar.abs (m.a * m.d)) (Scalar.abs (m.b * m.c))
  !Scalar.isFinite m.det || Scalar.le (Scalar.abs m.det) (Scalar.epsilon * scale)

/-- Cramer's rule for `m * v = r`. -/
def cramer (m : Mat2 α) (r : Vec2 α) : Vec2 α :=
  ⟨(r.x * m.d - m.b * r.y) / m.det, (m.a * r.y - r.x * m.c) / m.det⟩

/-- The solution of `m * v = r`, unless the matrix is singular or something is not finite. -/
def solve (m : Mat2 α) (r : Vec2 α) : Option (Vec2 α) :=
  if !m.isFinite || m.isSingular then none
  else
    let v := m.cramer r
    if v.isFinite then some v else none

/-- The product with a vector. -/
def apply (m : Mat2 α) (v : Vec2 α) : Vec2 α :=
  ⟨m.a * v.x + m.b * v.y, m.c * v.x + m.d * v.y⟩

omit [Scalar α] in
/-- Rows and columns exchanged. -/
def transpose (m : Mat2 α) : Mat2 α :=
  ⟨m.a, m.c, m.b, m.d⟩

/-- A matrix is written row by row, in brackets. -/
instance : ToString (Mat2 Float) :=
  ⟨fun m => s!"[[{positional m.a}, {positional m.b}], [{positional m.c}, {positional m.d}]]"⟩

end Mat2

end PlanarNewton
