import PlanarNewton.Log.Logging
import PlanarNewton.Solver.Run

/-!
# The solver

A solver is a system with a configuration, a generator for its starts, the memory of the system and
the measures of its last solve. Settings are checked when they are made; that the total budget covers
an attempt is left open by the single settings and checked by every solve.
-/

namespace PlanarNewton

/-- A system to be solved, and all that a solve depends on. -/
structure Solver (μ : Type) where
  system : Equations Float μ
  memory : μ
  config : Config
  generator : Generator
  measures : Option Measures := none

/-- A change of the settings of a solver. -/
inductive Setting where
  | budgets (accuracy : Float) (perTry total : UInt64)
  | accuracy (v : Float)
  | iterationsPerTry (v : UInt64)
  | iterationsTotal (v : UInt64)
  | searchRange (lower upper : Vec2 Float)
  /-- Starts the random numbers of a seed anew. -/
  | seed (v : UInt64)
  /-- Takes the random numbers from a given generator, which no seed of the configuration names. -/
  | generator (g : Generator)
  | logLevel (text : String)

/-- What a solve answers: its result, the solver and the logging after it, and the run it made, if any. -/
structure Solved (μ : Type) where
  result : Except Error (Vec2 Float)
  solver : Solver μ
  logging : Logging
  run : Option (Run μ)

namespace Solver

variable {μ : Type}

/-- The solver with the default configuration, on random numbers from outside. -/
def new (system : Equations Float μ) (memory : μ) (entropy : Generator) : Solver μ :=
  { system, memory, config := {}, generator := entropy }

/-- The solver with a given configuration; without a seed its random numbers are those from outside. -/
def withConfig (system : Equations Float μ) (memory : μ) (entropy : Generator) (config : Config) :
    Except Error (Solver μ) := do
  config.validate
  return { system, memory, config, generator := config.seed.elim entropy Generator.ofSeed }

/-- The solver with a changed configuration. -/
def reconfigure (s : Solver μ) (change : Config → Config) : Solver μ :=
  { s with config := change s.config }

/-- Makes a setting, unless its check refuses it. -/
def set (s : Solver μ) : Setting → Except Error (Solver μ)
  | .budgets accuracy perTry total => do
    let perTry ← Config.checkIterationsPerTry perTry
    let total ← Config.checkIterationsTotal total perTry
    let accuracy ← Config.checkAccuracy accuracy
    return s.reconfigure fun c =>
      { c with accuracy, iterationsPerTry := perTry, iterationsTotal := total }
  | .accuracy v => do
    let accuracy ← Config.checkAccuracy v
    return s.reconfigure fun c => { c with accuracy }
  | .iterationsPerTry v => do
    let v ← Config.checkIterationsPerTry v
    return s.reconfigure fun c => { c with iterationsPerTry := v }
  | .iterationsTotal v => do
    let v ← Config.checkIterationsTotal v 1
    return s.reconfigure fun c => { c with iterationsTotal := v }
  | .searchRange lower upper => do
    Config.checkSearchRange lower upper
    return s.reconfigure fun c => { c with lower, upper }
  | .seed v =>
    return { s.reconfigure fun c => { c with seed := some v } with generator := .ofSeed v }
  | .generator g =>
    return { s.reconfigure fun c => { c with seed := none } with generator := g }
  | .logLevel text => do
    let level ← Level.normalize text
    return s.reconfigure fun c => { c with logLevel := some level }

/-- Asks for the logger that the configuration names, if it names one. -/
def startLogging (c : Config) (log : Logging) : Except Error Unit × Logging :=
  match c.logLevel with
  | none => (.ok (), log)
  | some level => log.start level .terminal

/--
Solves the system. A configuration that is not valid is refused before anything happens; otherwise the
run moves the generator, the memory and the measures on, also when it finds no solution.
-/
def solve (s : Solver μ) (log : Logging) : Solved μ :=
  match s.config.validate with
  | .error e => ⟨.error e, s, log, none⟩
  | .ok () =>
    match startLogging s.config log with
    | (.error e, log) => ⟨.error e, s, log, none⟩
    | (.ok (), log) =>
      let run := s.system.run s.config s.generator s.memory
      { result := run.result
        solver := { s with
          memory := run.memory, generator := run.generator, measures := some run.measures }
        logging := log.recordAll run.events
        run := some run }

end Solver

end PlanarNewton
