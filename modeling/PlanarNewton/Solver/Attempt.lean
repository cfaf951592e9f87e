import PlanarNewton.Equations
import PlanarNewton.Measures

/-!
# Attempts

One attempt: Newton's method from a start point, until the residual is below the accuracy, a step
fails, or the iterations allowed are spent. The point that the last allowed step reaches is still
looked at. An attempt keeps every point at which it evaluated the system, with what it found there.
-/

namespace PlanarNewton

/-- A point at which the system was evaluated, and what came out. -/
structure Visit where
  point : Vec2 Float
  evaluation : Evaluation Float

/-- How an attempt ends. -/
inductive Outcome where
  /-- The residual at the solution is below the accuracy. -/
  | converged (solution : Vec2 Float) (residual : Float)
  | failed (failure : Failure)

/-- Why the attempt failed, if it did. -/
def Outcome.failure? : Outcome → Option Failure
  | converged .. => none
  | failed failure => some failure

/-- What an attempt did: its visits in order, the steps it began, its end, and the memory it left. -/
structure Attempt (μ : Type) where
  visits : List Visit
  steps : Nat
  outcome : Outcome
  memory : μ

namespace Equations

variable {μ : Type}

/-- The point that the Newton step from a visit leads to, or why there is none. -/
def advance (s : Equations Float μ) (v : Visit) : Except Failure (Vec2 Float) :=
  match v.evaluation.step with
  | none => .error .singular
  | some step =>
    let next := v.point + step
    if !next.isFinite then .error .nonFinite
    else if !s.accepts next then .error .constraintViolated
    else .ok next

/--
Newton's method from `point` with `left` steps allowed, after `steps` steps and the given visits, the
latest first.
-/
def iterate (s : Equations Float μ) (accuracy : Float) (left : Nat) (point : Vec2 Float) (memory : μ)
    (steps : Nat) (visits : List Visit) : Attempt μ :=
  let (evaluation, memory) := s.evaluate point memory
  let visits := ⟨point, evaluation⟩ :: visits
  let finish (steps : Nat) (outcome : Outcome) : Attempt μ :=
    ⟨visits.reverse, steps, outcome, memory⟩
  if !evaluation.objective.isFinite then finish steps (.failed .nonFinite)
  else
    let residual := evaluation.objective.norm
    if residual < accuracy then finish steps (.converged point residual)
    else
      match left with
      | 0 => finish steps (.failed .exhausted)
      | left + 1 =>
        match s.advance ⟨point, evaluation⟩ with
        | .error failure => finish (steps + 1) (.failed failure)
        | .ok next => iterate s accuracy left next memory (steps + 1) visits

/-- The attempt from `start` with `allowed` steps. -/
def attempt (s : Equations Float μ) (accuracy : Float) (allowed : Nat) (start : Vec2 Float)
    (memory : μ) : Attempt μ :=
  s.iterate accuracy allowed start memory 0 []

end Equations

end PlanarNewton
