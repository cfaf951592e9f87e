import Mathlib.Tactic
import PlanarNewton.Solver.Basic

/-!
# Requests for a logger

A request for a logger that names a level moves the maximum level there, and installs a logger unless there
is one (`Logging.accept`); one that names no level, or off, or a file that cannot be made, changes nothing.
A logger that is installed reports its start, which is the first record that it keeps.

A solve makes such a request where its configuration names a level (`Solver.startLogging_snd`), so that the
start of a logger can be the first record of a solve. `Logging.startRecords` are the records that the
request makes, which are what it adds to those that are kept (`Solver.records_startLogging`).
-/

namespace PlanarNewton

/-- The least urgent severity that the level of a text lets through, if the text names a level that does. -/
def Level.named? (text : String) : Option Severity :=
  match parse text with
  | .ok (.upTo severity) => some severity
  | _ => none

/-- The texts that name a severity are those of the levels other than off. -/
lemma Level.named?_eq_some {text : String} {severity : Severity} :
    named? text = some severity ↔ parse text = .ok (.upTo severity) := by
  rw [named?]
  cases hp : parse text with
  | error e => exact ⟨nofun, nofun⟩
  | ok level =>
    cases level with
    | off => exact ⟨nofun, nofun⟩
    | upTo s => simp

namespace Logging

/-- Moves the maximum level, and installs a logger of this level that reports its start, unless there is one. -/
def accept (log : Logging) (file : Bool) (severity : Severity) : Logging :=
  match log.logger with
  | some _ => { log with maximum := .upTo severity, unusedFile := log.unusedFile || file }
  | none =>
    record { log with
      maximum := .upTo severity
      logger := some { level := .upTo severity, hasFile := file } } (.loggerStarted (.upTo severity))

/-- A request that names no level, or off, changes nothing. -/
lemma start_of_unnamed {text : String} (h : Level.named? text = none) (log : Logging)
    (target : LogTarget) : (log.start text target).2 = log := by
  rw [start]
  cases hp : Level.parse text with
  | error e => rfl
  | ok level =>
    cases level with
    | off => rfl
    | upTo severity =>
      rw [Level.named?_eq_some.mpr hp] at h
      cases h

/-- A request for a file that cannot be made changes nothing. -/
lemma start_unwritableFile (log : Logging) (text cause : String) :
    (log.start text (.unwritableFile cause)).2 = log := by
  cases hn : Level.named? text with
  | none => exact start_of_unnamed hn log _
  | some severity => rw [start, Level.named?_eq_some.mp hn]

section Named

variable {text : String} {severity : Severity}

/-- A request for the terminal is accepted if it names a level. -/
lemma start_terminal (h : Level.named? text = some severity) (log : Logging) :
    (log.start text .terminal).2 = log.accept false severity := by
  rw [start, Level.named?_eq_some.mp h, accept]
  cases log.logger with
  | none => rfl
  | some l => simp

/-- A request for a file is accepted if it names a level. -/
lemma start_file (h : Level.named? text = some severity) (log : Logging) :
    (log.start text .file).2 = log.accept true severity := by
  rw [start, Level.named?_eq_some.mp h, accept]
  cases log.logger with
  | none => rfl
  | some l => simp

end Named

/-- A record does not move the maximum level. -/
lemma maximum_record (log : Logging) (e : Event) : (log.record e).maximum = log.maximum := by
  rw [record]
  split <;> rfl

/-- Records do not move the maximum level. -/
lemma maximum_recordAll (log : Logging) (events : List Event) :
    (log.recordAll events).maximum = log.maximum := by
  induction events generalizing log with
  | nil => rfl
  | cons e events ih => exact (ih _).trans (log.maximum_record e)

/-- An accepted request moves the maximum level to the one that it names. -/
lemma maximum_accept (log : Logging) (file : Bool) (severity : Severity) :
    (log.accept file severity).maximum = .upTo severity := by
  rw [accept]
  split
  · rfl
  · exact maximum_record _ _

/-- The logger that is installed first reports its start, if its level lets that through. -/
lemma logger_accept {log : Logging} (h : log.logger = none) (file : Bool) (severity : Severity) :
    (log.accept file severity).logger = some {
      level := .upTo severity
      hasFile := file
      records := (if (Level.upTo severity).allows .info then
        [.loggerStarted (.upTo severity)] else []).toArray } := by
  rw [accept, h]
  cases severity <;> rfl

/--
The records that are made when a severity is asked for: the start of a logger that is installed, if its level
lets that through.
-/
def startRecords (log : Logging) (asked : Option Severity) : List Event :=
  match log.logger with
  | some _ => []
  | none => asked.elim [] fun severity =>
    if (Level.upTo severity).allows .info then [.loggerStarted (.upTo severity)] else []

/-- Before a run, the start of a logger is recorded or nothing. -/
lemma startRecords_cases (log : Logging) (asked : Option Severity) : log.startRecords asked = [] ∨
    log.logger = none ∧ ∃ severity, asked = some severity ∧
      log.startRecords asked = [.loggerStarted (.upTo severity)] := by
  rw [startRecords]
  cases log.logger with
  | some l => exact .inl rfl
  | none =>
    cases asked with
    | none => exact .inl rfl
    | some severity =>
      cases severity with
      | error | warn => exact .inl rfl
      | info | debug => exact .inr ⟨rfl, _, rfl, rfl⟩

end Logging

namespace Solver

/-- The request of a solve is accepted if its configuration names a level, and else changes nothing. -/
lemma startLogging_snd (c : Config) (log : Logging) : (startLogging c log).2 =
    (c.logLevel.bind Level.named?).elim log (log.accept false) := by
  rw [startLogging]
  cases c.logLevel with
  | none => rfl
  | some text =>
    rw [Option.bind_some]
    cases hn : Level.named? text with
    | none => exact Logging.start_of_unnamed hn log _
    | some severity => exact Logging.start_terminal hn log

/-- What the request of a solve adds to the records that are kept is the start of the logger. -/
lemma records_startLogging (c : Config) (log : Logging) : (startLogging c log).2.records.toList =
    log.records.toList ++ log.startRecords (c.logLevel.bind Level.named?) := by
  rw [startLogging_snd, Logging.startRecords]
  cases c.logLevel.bind Level.named? with
  | none => cases log.logger <;> simp
  | some severity =>
    rw [Option.elim_some]
    cases hl : log.logger with
    | none => simp [Logging.records, Logging.logger_accept hl, hl]
    | some l => simp [Logging.records, Logging.accept, hl]

end Solver

end PlanarNewton
