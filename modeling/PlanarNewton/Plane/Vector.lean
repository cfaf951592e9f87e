import PlanarNewton.Plane.Scalar
import PlanarNewton.Binary64.Hypotenuse
import PlanarNewton.Decimal.Layout

/-!
# Vectors of the plane

A `Vec2` is a point, a Newton step or a pair of objective values. The operations work coordinate by
coordinate; `norm` is the Euclidean length, rounded once.
-/

namespace PlanarNewton

/-- A point or vector of the plane. -/
structure Vec2 (α : Type) where
  x : α
  y : α
deriving DecidableEq, BEq, Repr

namespace Vec2

variable {α : Type} [Scalar α]

/-- Vectors are added by coordinates. -/
instance : Add (Vec2 α) := ⟨fun u v => ⟨u.x + v.x, u.y + v.y⟩⟩

/-- Vectors are subtracted by coordinates. -/
instance : Sub (Vec2 α) := ⟨fun u v => ⟨u.x - v.x, u.y - v.y⟩⟩

/-- A vector is negated by coordinates. -/
instance : Neg (Vec2 α) := ⟨fun v => ⟨-v.x, -v.y⟩⟩

/-- The vector times a number. -/
def scale (v : Vec2 α) (s : α) : Vec2 α :=
  ⟨v.x * s, v.y * s⟩

/-- Both coordinates are finite. -/
def isFinite (v : Vec2 α) : Bool :=
  Scalar.isFinite v.x && Scalar.isFinite v.y

/-- The Euclidean length. -/
def norm (v : Vec2 Float) : Float :=
  Binary64.hypotenuse v.x v.y

/-- The length of the difference of two points. -/
def distance (u v : Vec2 Float) : Float :=
  (u - v).norm

/-- A vector is written as its coordinates in brackets. -/
instance : ToString (Vec2 Float) :=
  ⟨fun v => s!"[{positional v.x}, {positional v.y}]"⟩

end Vec2

end PlanarNewton
