import PlanarNewton.Log.Event

/-!
# Logging

The state of logging that all solvers of a process share: a maximum level, and the one logger that was
installed first. A later request for a logger is no error; it installs nothing but still moves the
maximum level, and leaves an empty file behind where it asked for one. A record is made if the maximum
level in force lets it through, and the logger keeps it if its own level does too.
-/

namespace PlanarNewton

/-- A logger with the records it kept; `hasFile` says that it writes them to a file as well. -/
structure Logger where
  level : Level
  hasFile : Bool := false
  records : Array Event := #[]

/-- The logger keeps a record that its level lets through. -/
def Logger.record (l : Logger) (e : Event) : Logger :=
  if l.level.allows e.severity then { l with records := l.records.push e } else l

/-- Where a logger is asked to write. -/
inductive LogTarget where
  | terminal
  /-- The terminal and a new file. -/
  | file
  /-- The terminal and a file that cannot be created, for the given cause. -/
  | unwritableFile (cause : String)

/-- The maximum level in force, the installed logger, and what is left of later requests. -/
structure Logging where
  maximum : Level := .off
  logger : Option Logger := none
  /-- A file was made for a logger that was not installed, so that it stays empty. -/
  unusedFile : Bool := false

namespace Logging

/-- Logging with a logger that keeps all records made, before any level is asked for. -/
def recording : Logging where
  logger := some { level := .upTo .debug }

/-- Makes a record, if the maximum level lets it through. -/
def record (log : Logging) (e : Event) : Logging :=
  if log.maximum.allows e.severity then { log with logger := log.logger.map (·.record e) } else log

/-- Makes records in order. -/
def recordAll (log : Logging) (events : List Event) : Logging :=
  events.foldl record log

/--
Asks for a logger of the level that a text names. The levels `off` and `none` ask for nothing. A
logger that is installed already stays: only the maximum level moves, and a file that was asked for has
been made before.
-/
def start (log : Logging) (text : String) (target : LogTarget) : Except Error Unit × Logging :=
  match Level.parse text with
  | .error e => (.error e, log)
  | .ok .off => (.ok (), log)
  | .ok level =>
    match target, log.logger with
    | .unwritableFile cause, _ => (.error (.logFile cause), log)
    | .terminal, some _ => (.ok (), { log with maximum := level })
    | .file, some _ => (.ok (), { log with maximum := level, unusedFile := true })
    | .terminal, none =>
      (.ok (), record { log with maximum := level, logger := some { level } } (.loggerStarted level))
    | .file, none =>
      (.ok (), record { log with maximum := level, logger := some { level, hasFile := true } }
        (.loggerStarted level))

/-- The records that the installed logger kept. -/
def records (log : Logging) : Array Event :=
  log.logger.elim #[] (·.records)

/-- The records in the log file, if there is one. -/
def fileRecords? (log : Logging) : Option (List Event) :=
  match log.logger.filter (·.hasFile) with
  | some l => some l.records.toList
  | none => if log.unusedFile then some [] else none

/-- The lines of the log file, if there is one; `origin` is named in debug lines. -/
def fileLines? (log : Logging) (origin : String) : Option (List String) :=
  log.fileRecords?.map (·.map (Event.fileLine origin))

end Logging

end PlanarNewton
