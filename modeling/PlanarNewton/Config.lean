import PlanarNewton.Log.Level

/-!
# Configuration

What a solver is told: the accuracy, the two iteration budgets, the box its random starts are drawn
from, the seed of those starts and the log level. Each setting has a check of its own; `validate` makes
all of them, in a fixed order, and adds that the total budget covers at least one attempt.
-/

namespace PlanarNewton

/-- The settings of a solver. -/
structure Config where
  /-- A point is a solution once the length of `(F, G)` is below this. -/
  accuracy : Float := 1e-6
  /-- The Newton steps that one start may take. -/
  iterationsPerTry : UInt64 := 1000
  /-- The Newton steps that all starts of one solve may take together. -/
  iterationsTotal : UInt64 := 100000
  lower : Vec2 Float := ⟨-10.0, -10.0⟩
  upper : Vec2 Float := ⟨10.0, 10.0⟩
  /-- The seed of the random starts, if they are to be reproducible. -/
  seed : Option UInt64 := none
  /-- The log level that a solve asks for, if any. -/
  logLevel : Option String := none
deriving BEq, Repr

namespace Config

/-- An accuracy is a finite positive number. -/
def checkAccuracy (v : Float) : Except Error Float :=
  if !v.isFinite || v ≤ 0.0 then .error (.accuracy v) else .ok v

/-- An attempt has at least one iteration. -/
def checkIterationsPerTry (v : UInt64) : Except Error UInt64 :=
  if v = 0 then .error (.iterationsPerTry v) else .ok v

/-- A solve has at least one iteration, and as many as an attempt. -/
def checkIterationsTotal (v perTry : UInt64) : Except Error UInt64 :=
  if v = 0 ∨ v < perTry then .error (.iterationsTotal v perTry) else .ok v

/-- A search box has finite corners and a finite width, and it is not empty. -/
def checkSearchRange (lower upper : Vec2 Float) : Except Error Unit :=
  if !lower.isFinite || !upper.isFinite || !(upper - lower).isFinite ||
      lower.x ≥ upper.x || lower.y ≥ upper.y then
    .error (.searchRange lower upper)
  else
    .ok ()

/-- Every setting is accepted, and the total budget covers an attempt. -/
def validate (c : Config) : Except Error Unit := do
  let _ ← checkAccuracy c.accuracy
  let _ ← checkIterationsPerTry c.iterationsPerTry
  let _ ← checkIterationsTotal c.iterationsTotal c.iterationsPerTry
  checkSearchRange c.lower c.upper
  match c.logLevel with
  | some level => let _ ← Level.normalize level
  | none => pure ()

end Config

end PlanarNewton
