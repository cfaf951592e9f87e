import PlanarNewton.Difference
import PlanarNewton.Plane.Matrix

/-!
# Systems of two equations

A system gives, at each point, the values of its two objectives and their Jacobian, and it accepts or
refuses points by its constraints. It may be written down as two functions whose derivatives are
estimated, as two functions with their four derivatives, or as one function for everything, which may
keep a memory from call to call.
-/

namespace PlanarNewton

/-- The values of the two objectives at a point, and their Jacobian there. -/
structure Evaluation (α : Type) where
  objective : Vec2 α
  jacobian : Mat2 α
deriving BEq, Repr

/-- The system `F = 0`, `G = 0` with the constraints on its solutions, and a memory of type `μ`. -/
structure Equations (α μ : Type) where
  evaluate : Vec2 α → μ → Evaluation α × μ
  constraints : List (Vec2 α → Bool)

namespace Equations

variable {α μ : Type}

/-- The system that one function computes; it sees its memory and leaves a new one. -/
def ofCombined (f : Vec2 α → μ → Evaluation α × μ) : Equations α μ :=
  ⟨f, []⟩

/-- The system that a function without memory computes. -/
def ofFunction (f : Vec2 α → Evaluation α) : Equations α μ :=
  ofCombined fun p memory => (f p, memory)

/-- Two objectives with the derivatives `∂f/∂x`, `∂f/∂y`, `∂g/∂x`, `∂g/∂y`. -/
def ofDerivatives (f g fx fy gx gy : Vec2 α → α) : Equations α μ :=
  ofFunction fun p => ⟨⟨f p, g p⟩, ⟨fx p, fy p, gx p, gy p⟩⟩

/-- Two objectives with derivatives estimated by central differences. -/
def ofObjectives [Scalar α] (step : α) (f g : Vec2 α → α) : Equations α μ :=
  ofDerivatives f g (centralDifference .x step f) (centralDifference .y step f)
    (centralDifference .x step g) (centralDifference .y step g)

/-- The system with one more constraint, which is asked after the others. -/
def constrain (s : Equations α μ) (c : Vec2 α → Bool) : Equations α μ :=
  { s with constraints := s.constraints ++ [c] }

/-- All constraints accept the point. -/
def accepts (s : Equations α μ) (p : Vec2 α) : Bool :=
  s.constraints.all fun c => c p

end Equations

/-- The Newton step: the solution of `J * v = -(F, G)`. -/
def Evaluation.step {α : Type} [Scalar α] (e : Evaluation α) : Option (Vec2 α) :=
  e.jacobian.solve (-e.objective)

end PlanarNewton
