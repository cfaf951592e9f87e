import PlanarNewton.Config
import PlanarNewton.Log.Event
import PlanarNewton.Solver.Attempt
import PlanarNewton.Solver.Start

/-!
# Runs

A run makes attempts from random starts until one converges, the total budget of iterations is spent,
or too many points are refused. It keeps its rounds: the refused points, the start and the attempt of
each. `Run.events` tells the rounds as log records.
-/

namespace PlanarNewton

/-- One turn of a run: the points refused before a start was found, the start, and its attempt. -/
structure Round where
  refused : List (Vec2 Float)
  start : Vec2 Float
  visits : List Visit
  steps : Nat
  outcome : Outcome

/-- What a run did and what it left behind. -/
structure Run (μ : Type) where
  result : Except Error (Vec2 Float)
  measures : Measures
  generator : Generator
  memory : μ
  rounds : List Round
  /-- The points refused after the last round, if sampling was given up. -/
  givenUp : Option (List (Vec2 Float))

/-- The state of a run between two rounds, the latest round first. -/
structure Progress (μ : Type) where
  measures : Measures := {}
  generator : Generator
  memory : μ
  rounds : List Round := []

namespace Progress

variable {μ : Type}

/-- The run that ends here with a solution. -/
def solved (p : Progress μ) (solution : Vec2 Float) (residual : Float) : Run μ where
  result := .ok solution
  measures := { p.measures with residual := some residual }
  generator := p.generator
  memory := p.memory
  rounds := p.rounds.reverse
  givenUp := none

/-- The run that ends here without a solution. -/
def unsolved (p : Progress μ) (givenUp : Option (List (Vec2 Float))) : Run μ where
  result := .error (.noSolution p.measures.attempts p.measures.totalIterations)
  measures := p.measures
  generator := p.generator
  memory := p.memory
  rounds := p.rounds.reverse
  givenUp := givenUp

end Progress

namespace Equations

variable {μ : Type}

/--
Continues a run for so many turns at most. Every failed attempt is charged at least one iteration, so
as many turns as there are iterations in the total budget are enough.
-/
def runFrom (s : Equations Float μ) (c : Config) : Nat → Progress μ → Run μ
  | 0, p => p.unsolved none
  | turns + 1, p =>
    let total := c.iterationsTotal.toNat
    if p.measures.totalIterations < total then
      let draw := s.drawStart c.lower c.upper (total - p.measures.rejectedStarts) p.generator
      let measures := { p.measures with
        rejectedStarts := p.measures.rejectedStarts + draw.refused.length }
      match draw.start with
      | none =>
        let p := { p with measures := measures.recordGiveUp, generator := draw.generator }
        p.unsolved (some draw.refused)
      | some start =>
        let allowed := min c.iterationsPerTry.toNat (total - measures.totalIterations)
        let a := s.attempt c.accuracy allowed start p.memory
        let p : Progress μ := {
          measures := measures.record a.steps a.outcome.failure?
          generator := draw.generator
          memory := a.memory
          rounds := ⟨draw.refused, start, a.visits, a.steps, a.outcome⟩ :: p.rounds }
        match a.outcome with
        | .converged solution residual => p.solved solution residual
        | .failed _ => runFrom s c turns p
    else
      p.unsolved none

/-- The run with the given configuration, generator and memory. -/
def run (s : Equations Float μ) (c : Config) (generator : Generator) (memory : μ) : Run μ :=
  s.runFrom c c.iterationsTotal.toNat { generator, memory }

end Equations

/-- The records of an attempt: one for each step it began, and one if it failed. -/
def Round.events (r : Round) (number : Nat) : List Event :=
  let steps := (r.visits.take r.steps).zipIdx 1
  steps.map (fun (v, i) => .iteration i v.point v.evaluation.objective) ++
    match r.outcome with
    | .converged .. => []
    | .failed failure => [.attemptFailed number r.start failure (max r.steps 1)]

namespace Run

variable {μ : Type}

/-- The record that a run ends with. -/
def lastEvent (r : Run μ) : Event :=
  match r.result with
  | .ok solution => .solved solution r.measures.attempts r.measures.totalIterations
  | .error e => .unsolved e

/-- The records of a run, in order. -/
def events (r : Run μ) : List Event :=
  (r.rounds.zipIdx 1).flatMap (fun (round, i) => round.events i) ++
    (if r.givenUp.isSome then [.samplingGivenUp r.measures.rejectedStarts] else []) ++
    [r.lastEvent]

/-- The points drawn in a run, in order. -/
def candidates (r : Run μ) : List (Vec2 Float) :=
  r.rounds.flatMap (fun round => round.refused ++ [round.start]) ++ r.givenUp.getD []

/-- The evaluations of the system in a run, in order. -/
def visits (r : Run μ) : List Visit :=
  r.rounds.flatMap (·.visits)

end Run

end PlanarNewton
