import PlanarNewton.Plane.Vector

/-!
# Errors

Everything that is refused or not found: a solve that spends its budget, and the settings that are
not accepted. What goes wrong within one attempt is no error but an outcome of the attempt.
-/

namespace PlanarNewton

/-- Why a request has no answer. -/
inductive Error where
  /-- The budget is spent and no attempt converged. -/
  | noSolution (attempts iterations : Nat)
  | accuracy (got : Float)
  /-- No iteration would be allowed in an attempt. -/
  | iterationsPerTry (got : UInt64)
  /-- No iteration would be allowed at all, or fewer than in one attempt. -/
  | iterationsTotal (got perTry : UInt64)
  /-- The search box is empty, or its bounds or its width are not finite. -/
  | searchRange (lower upper : Vec2 Float)
  /-- The step of a difference quotient is not a finite positive number. -/
  | differenceStep (got : Float)
  | logLevel (got : String)
  | logFile (cause : String)
deriving Repr

/-- What a user is told about the error. -/
def Error.message : Error → String
  | .noSolution attempts iterations =>
    s!"no solution found: {attempts} attempts, {iterations} iterations in total"
  | .accuracy got =>
    s!"invalid accuracy: must be finite and > 0. got {positional got}"
  | .iterationsPerTry got =>
    s!"invalid iterations per try: must be >= 1. got {got}"
  | .iterationsTotal got perTry =>
    s!"invalid total iterations: must be >= 1 and >= iterations per try ({perTry}). got {got}"
  | .searchRange lower upper =>
    "invalid search range: bounds must be finite and lower < upper. got " ++
      s!"[{positional lower.x}, {positional upper.x}] x " ++
      s!"[{positional lower.y}, {positional upper.y}]"
  | .differenceStep got =>
    s!"invalid derivation step: epsilon must be finite and > 0. got {positional got}"
  | .logLevel got =>
    s!"loglevel must be debug, info, warn, error, off or none. got {got}"
  | .logFile cause =>
    s!"logger setup failed: {cause}"

end PlanarNewton
