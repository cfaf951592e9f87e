import PlanarNewton.Error

/-!
# Central differences

The partial derivative of a function of the plane along one axis, estimated from its values a step
before and a step behind a point. The estimate is exact for quadratics up to rounding.
-/

namespace PlanarNewton

/-- A coordinate axis of the plane. -/
inductive Axis where
  | x
  | y
deriving DecidableEq, Repr

/-- The point moved by `h` along an axis. -/
def Axis.shift {α : Type} [Add α] (axis : Axis) (p : Vec2 α) (h : α) : Vec2 α :=
  match axis with
  | .x => ⟨p.x + h, p.y⟩
  | .y => ⟨p.x, p.y + h⟩

/-- The point moved back by `h` along an axis. -/
def Axis.shiftBack {α : Type} [Sub α] (axis : Axis) (p : Vec2 α) (h : α) : Vec2 α :=
  match axis with
  | .x => ⟨p.x - h, p.y⟩
  | .y => ⟨p.x, p.y - h⟩

/-- The difference of the values a step before and behind `p`, divided by twice the step. -/
def centralDifference {α : Type} [Scalar α] (axis : Axis) (step : α) (f : Vec2 α → α)
    (p : Vec2 α) : α :=
  (f (axis.shift p step) - f (axis.shiftBack p step)) / (Scalar.two * step)

namespace Difference

/-- The step that is used where none is given. -/
def defaultStep : Float := 1e-6

/-- A step is a finite positive number. -/
def checkStep (step : Float) : Except Error Float :=
  if !step.isFinite || step ≤ 0.0 then .error (.differenceStep step) else .ok step

end Difference

end PlanarNewton
