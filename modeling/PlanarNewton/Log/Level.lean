import PlanarNewton.Error
import PlanarNewton.Text.Lowercase

/-!
# Log levels

A log record has a severity, and a level says which severities are let through: `debug` lets through
everything, `off` nothing. Levels are named by texts in any letter case; `none` is another name of
`off`.
-/

namespace PlanarNewton

/-- How much a log record matters. -/
inductive Severity where
  | error
  | warn
  | info
  | debug
deriving DecidableEq, Repr

/-- The severities that are let through, as the least urgent of them. -/
inductive Level where
  | off
  | upTo (severity : Severity)
deriving DecidableEq, Repr

namespace Severity

/-- The place of a severity in the order of urgency, the most urgent first. -/
def rank : Severity → Nat
  | .error => 1
  | .warn => 2
  | .info => 3
  | .debug => 4

/-- The name of a severity in a log line. -/
def name : Severity → String
  | .error => "ERROR"
  | .warn => "WARN"
  | .info => "INFO"
  | .debug => "DEBUG"

end Severity

namespace Level

/-- The name of a level in a log line. -/
def name : Level → String
  | .off => "OFF"
  | .upTo severity => severity.name

/-- The level lets a record of this severity through. -/
def allows : Level → Severity → Bool
  | .off, _ => false
  | .upTo least, severity => severity.rank ≤ least.rank

/-- The level that a text names, in any letter case. -/
def parse (text : String) : Except Error Level :=
  match Text.lowercase text with
  | "debug" => .ok (.upTo .debug)
  | "info" => .ok (.upTo .info)
  | "warn" => .ok (.upTo .warn)
  | "error" => .ok (.upTo .error)
  | "off" | "none" => .ok .off
  | _ => .error (.logLevel text)

/-- The names that a configuration may give a level. -/
def names : List String :=
  ["debug", "info", "warn", "error", "off", "none"]

/-- The lower-case form of a text that names a level. -/
def normalize (text : String) : Except Error String :=
  let small := Text.lowercase text
  if names.contains small then .ok small else .error (.logLevel small)

end Level

end PlanarNewton
