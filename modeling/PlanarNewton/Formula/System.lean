import PlanarNewton.Formula
import PlanarNewton.Summation.Objectives

/-!
# Systems written as formulas

A description of a system of equations by formulas, in any of the ways that a system may be written
down. Its memory is the number of evaluations made so far, which only a combined function looks at:
there `Formula.calls` is the number of the current evaluation, from 1 on.
-/

namespace PlanarNewton

/-- The formulas of two objectives and of their four derivatives. -/
structure Formula.Jet where
  f : Formula
  g : Formula
  fx : Formula
  fy : Formula
  gx : Formula
  gy : Formula

namespace Formula.Jet

/-- The values of all six formulas at a point, on the given call. -/
def value (j : Jet) (call : Float) (p : Vec2 Float) : Evaluation Float where
  objective := ⟨j.f.value call p, j.g.value call p⟩
  jacobian := ⟨j.fx.value call p, j.fy.value call p, j.gx.value call p, j.gy.value call p⟩

/-- Refuses a difference quotient over a step that is none. -/
def check (j : Jet) : Except Error Unit := do
  j.f.check; j.g.check; j.fx.check; j.fy.check; j.gx.check; j.gy.check

end Formula.Jet

/-- The ways to write a system down. -/
inductive SystemShape where
  /-- Two objectives; their derivatives are estimated over the given step. -/
  | objectives (f g : Formula) (step : Float)
  | derivatives (jet : Formula.Jet)
  /-- One function for everything, which counts its calls. -/
  | combined (jet : Formula.Jet)
  /-- The summation system, computed in one pass. -/
  | summation

namespace SystemShape

/-- Refuses a step that is none, in the formulas or of the system itself. -/
def check : SystemShape → Except Error Unit
  | objectives f g step => do
    f.check; g.check
    let _ ← Difference.checkStep step
  | derivatives jet | combined jet => jet.check
  | summation => .ok ()

/-- The equations of a system. A combined one has the number of its calls for memory. -/
def equations : SystemShape → Equations Float UInt64
  | objectives f g step => .ofObjectives step f.eval g.eval
  | derivatives j => .ofDerivatives j.f.eval j.g.eval j.fx.eval j.fy.eval j.gx.eval j.gy.eval
  | combined j => .ofCombined fun p calls => (j.value (calls + 1).toFloat p, calls + 1)
  | summation => Summation.masterSystem

end SystemShape

/-- A system written as formulas: its shape, and its constraints in order. -/
structure SystemDescription where
  shape : SystemShape
  constraints : List Formula := []

/-- The described system, unless a step in it is none. -/
def SystemDescription.build (d : SystemDescription) : Except Error (Equations Float UInt64) := do
  d.shape.check
  d.constraints.forM Formula.check
  return d.constraints.foldl (fun s c => s.constrain c.holds) d.shape.equations

end PlanarNewton
