import PlanarNewton.Log.Level
import PlanarNewton.Measures

/-!
# Log records

What is written to the log, as data: the severity and the text of a record are functions of the event
that it reports, so a record that no level lets through is never put into words.
-/

namespace PlanarNewton

/-- What a log record reports. -/
inductive Event where
  | loggerStarted (level : Level)
  /-- An attempt begins its step with this number, from a point with these objective values. -/
  | iteration (number : Nat) (point objective : Vec2 Float)
  /-- An attempt from `start` failed after being charged so many iterations. -/
  | attemptFailed (attempt : Nat) (start : Vec2 Float) (failure : Failure) (iterations : Nat)
  /-- So many points were refused that no more are sampled. -/
  | samplingGivenUp (rejected : Nat)
  | solved (solution : Vec2 Float) (attempts iterations : Nat)
  | unsolved (error : Error)
deriving Repr

namespace Event

/-- How much the record of an event matters. -/
def severity : Event → Severity
  | loggerStarted _ => .info
  | iteration .. => .debug
  | attemptFailed .. => .debug
  | samplingGivenUp _ => .warn
  | solved .. => .info
  | unsolved _ => .error

/-- The text of the record of an event. -/
def text : Event → String
  | loggerStarted level => s!"logger started with level {level.name}"
  | iteration number point objective =>
    s!"iteration = {number}, point = {point}, residual = {positional objective.norm}"
  | attemptFailed attempt start failure iterations =>
    s!"attempt {attempt} from {start} failed: {failure.name} after {iterations} iterations"
  | samplingGivenUp rejected =>
    s!"{rejected} start points rejected by constraints, giving up sampling"
  | solved solution attempts iterations =>
    s!"solution {solution} found after {attempts} attempts, {iterations} iterations in total"
  | unsolved error => error.message

/--
The line of the record in a log file, behind the time of day. Only debug lines name their origin, the
thread and the component that they come from.
-/
def fileLine (origin : String) (e : Event) : String :=
  match e.severity with
  | .debug => s!"[{e.severity.name}] {origin}: {e.text}"
  | _ => s!"[{e.severity.name}] {e.text}"

end Event

end PlanarNewton
