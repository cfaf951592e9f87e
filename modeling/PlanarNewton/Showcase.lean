import PlanarNewton.PointTable
import PlanarNewton.Sampling
import PlanarNewton.Solver.Basic
import PlanarNewton.Summation.Objectives

/-!
# Showcase

Demonstrations of the solver, chosen by number: the four roots of a pair of quadratics, the root that a
constraint leaves of them, and the summation system in several forms. A demonstration is a list of
parts; `Part.lines` gives their printed lines.
-/

namespace PlanarNewton.Showcase

section

variable {α : Type} [Scalar α] [OfScientific α]

/-- The first quadratic, `3x² + 2y² - 35`. -/
def quadratic1 (p : Vec2 α) : α :=
  3.0 * p.x * p.x + 2.0 * p.y * p.y - 35.0

/-- The second quadratic, `4x² - 3y² - 24`. -/
def quadratic2 (p : Vec2 α) : α :=
  4.0 * p.x * p.x - 3.0 * p.y * p.y - 24.0

/-- The quadratics with their derivatives. -/
def derivedQuadratics : Equations α Unit :=
  .ofDerivatives quadratic1 quadratic2 (6.0 * ·.x) (4.0 * ·.y) (8.0 * ·.x) (-6.0 * ·.y)

end

/-- The quadratics with estimated derivatives. -/
def quadratics : Equations Float Unit :=
  .ofObjectives Difference.defaultStep quadratic1 quadratic2

/-- The quadratics with their derivatives, restricted to the third quadrant. -/
def thirdQuadrant : Equations Float Unit :=
  derivedQuadratics.constrain fun p => p.x < 0.0 && p.y < 0.0

/-- The roots found so far and one more, unless it is within `1e-4` of one of them. -/
def addDistinct (roots : List (Vec2 Float)) (root : Vec2 Float) : List (Vec2 Float) :=
  if roots.all fun r => r.distance root > 1e-4 then roots ++ [root] else roots

/-- The distinct roots of the quadratics that the seeds from 0 on lead to. -/
def distinctRoots (seeds : Nat) : List (Vec2 Float) :=
  (List.range seeds).foldl (fun roots seed =>
    let solver := { Solver.new quadratics () (.ofSeed (UInt64.ofNat seed)) with
      config := { seed := some (UInt64.ofNat seed) } }
    match (solver.solve {}).result with
    | .ok root => addDistinct roots root
    | .error _ => roots) []

/-- A solver solved again and again: its last measures and its last result. -/
structure Trial where
  title : String
  repetitions : Nat
  measures : Option Measures
  /-- The last solution with the residual of the objectives there. -/
  result : Option (Vec2 Float × Float)

/-- Solves `n` times in a row, on the shared logging, and keeps the last result. -/
def solveTimes : Nat → Solver Unit → Logging → Option (Vec2 Float) →
    Option (Vec2 Float) × Solver Unit × Logging
  | 0, solver, log, last => (last, solver, log)
  | n + 1, solver, log, _ =>
    let solved := solver.solve log
    solveTimes n solved.solver solved.logging solved.result.toOption

/-- Tries a solver out; the residual is taken from the two given objectives. -/
def trial (title : String) (solver : Solver Unit) (f g : Vec2 Float → Float) (repetitions : Nat) :
    Trial :=
  let (last, solver, _) := solveTimes repetitions solver {} none
  { title, repetitions
    measures := solver.measures
    result := last.map fun p => (p, (Vec2.mk (f p) (g p)).norm) }

/-- The search box of the summation example, with the other settings at their defaults. -/
def summationConfig : Config :=
  { lower := ⟨0.0, 0.0⟩, upper := ⟨20000.0, 1.0⟩ }

/-- A solver of the summation example on one of its systems. -/
def summationSolver (s : Equations Float Unit) (entropy : Generator) : Solver Unit :=
  { Solver.new s () entropy with config := summationConfig }

/-- A piece of what an example prints. -/
inductive Part where
  | text (lines : List String)
  | trial (t : Trial)

/-- What the demonstrations depend on. -/
structure Setup where
  /-- The number of seeds that the roots are searched from. -/
  seeds : Nat := 200
  /-- The accuracy to which closed forms are compared. -/
  accuracy : Float := 0.01
  /-- The random numbers of the solvers without a seed. -/
  entropy : Generator

/-- The comparison of the closed derivatives of `F` with central differences. -/
def derivativeCheck (accuracy : Float) : String :=
  let check (axis : Axis) (d : Vec2 Float → Float) :=
    Sampling.isDerivative Difference.defaultStep axis Summation.objective1Closed d 0.0 100.0 0.1 1.0
      accuracy
  s!"Checking derivatives: dF/da {check .x Summation.derivative11Closed}, " ++
    s!"dF/db {check .y Summation.derivative12Closed}"

/-- The comparison of the closed objectives with the sums that they stand for. -/
def objectiveCheck (accuracy : Float) : String :=
  let check1 (axis : Axis) (start stop step fixed : Float) :=
    Sampling.sameFunction axis Summation.objective1Closed Summation.objective1Iterative
      start stop step fixed accuracy
  let check2 (axis : Axis) (start stop step fixed : Float) :=
    Sampling.sameFunction axis Summation.objective2Closed Summation.objective2Iterative
      start stop step fixed accuracy
  let checks :=
    [check1 .x 0.0 100.0 0.1 1.0, check1 .x 0.0 1.0 0.001 1.0, check1 .y 0.0 100.0 0.1 1.0,
     check1 .y 0.0 100.0 0.1 (-1000.0), check2 .x 0.0 100.0 0.1 1.0, check2 .y 0.0 1.0 0.001 1.0,
     check2 .x 1e7 (1e7 + 100.0) 0.1 (-1000.0)]
  "Checking object functions: [" ++ ", ".intercalate (checks.map toString) ++ "]"

/-- What a demonstration prints, and the points it saves. -/
structure Demonstration where
  parts : List Part
  saved : Option (List (Vec2 Float)) := none

/-- The demonstration with the given number. -/
def demonstration? (n : Nat) (setup : Setup) : Option Demonstration :=
  let summation (title : String) (s : Equations Float Unit) (f g : Vec2 Float → Float)
      (repetitions : Nat) : Part :=
    .trial (trial title (summationSolver s setup.entropy) f g repetitions)
  let iterative := fun title s repetitions =>
    summation title s Summation.objective1Iterative Summation.objective2Iterative repetitions
  let closed := fun title s =>
    summation title s Summation.objective1Closed Summation.objective2Closed 1000
  match n with
  | 0 =>
    let roots := distinctRoots setup.seeds
    some { parts := [.text ("distinct roots: " :: roots.map toString)], saved := some roots }
  | 1 =>
    let solver := { Solver.new thirdQuadrant () setup.entropy with
      config := { logLevel := some "info" } }
    some { parts := [.trial (trial "constrained polynomial" solver quadratic1 quadratic2 100)] }
  | 2 =>
    let system := Equations.ofObjectives Difference.defaultStep Summation.objective1Iterative
      Summation.objective2Iterative
    some { parts := [iterative "iterative, no derivatives" system 10] }
  | 3 =>
    let system := Summation.withDomain Summation.iterativeSystem
    some { parts := [iterative "iterative, derivatives and constraints" system 10] }
  | 4 =>
    let system := Equations.ofObjectives Difference.defaultStep Summation.objective1Closed
      Summation.objective2Closed
    some { parts := [.text ["", objectiveCheck setup.accuracy], closed "closed, no derivatives" system] }
  | 5 =>
    let check := Part.text ["", derivativeCheck setup.accuracy]
    some { parts := [check, closed "closed, two derivatives" Summation.closedSystem] }
  | 6 => some { parts := [closed "master function" Summation.masterSystem] }
  | _ => none

/-- The lines of a trial, given the milliseconds that one solve took. -/
def Trial.lines (t : Trial) (milliseconds : Float) : List String :=
  ["", t.title, "*******", "time per solve, ms: " ++ Decimal.fixed 3 milliseconds] ++
    (t.measures.elim [] fun m => Text.boxLines (("measure", "value") :: m.statistics)) ++
    [match t.result with
      | some (p, residual) => s!"result  : {p}, residual = {scientific residual}"
      | none => "result  : no solution"]

/-- The printed lines of a part, given the milliseconds that one solve took. -/
def Part.lines (milliseconds : Float) : Part → List String
  | .text lines => lines
  | .trial t => t.lines milliseconds

/-- The printed lines of a demonstration; `none` stands for a number without one. -/
def lines (d : Option Demonstration) (milliseconds : Float) : List String :=
  match d with
  | some d => d.parts.flatMap (Part.lines milliseconds)
  | none => ["example not found"]

end PlanarNewton.Showcase
