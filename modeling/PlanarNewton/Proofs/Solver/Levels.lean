import PlanarNewton.Proofs.Solver.Safety
import PlanarNewton.Proofs.Solver.Seeding

/-!
# Log levels do not interfere

Solvers that differ in nothing but the log level of their configuration make the same run, under any
logging (`Solver.unlogged_atLevel`). A level that is accepted is also never the reason to refuse a
configuration, so that this goes on from solve to solve, whatever the levels of each of them and the
logging before the first (`Solver.tells_lockstep`). What differs are the records: those that a run makes
under one level are the ones that it lets through of those made at debug.

Before its run, a solve may install the logger of the process, whose start is then the first record. It names
the level, and it is made only where no logger was installed before, so it is no part of that comparison
(`withoutStarts`). In a row of solves it is made once at most (`Solver.count_starts_tells`).
-/

namespace PlanarNewton

variable {μ : Type}

/-- A choice of a level that a configuration accepts; it may leave it open. -/
def Level.IsChoice (level : Option String) : Prop :=
  ∀ text, level = some text → Text.lowercase text ∈ names

/-- An accepted level does not matter to the check of a configuration. -/
lemma Config.validate_atLevel (c : Config) {level : Option String} (h : Level.IsChoice level) :
    Config.validate { c with logLevel := level } = Config.validate { c with logLevel := none } := by
  cases level with
  | none => rfl
  | some text =>
    have hn : Level.normalize text = .ok (Text.lowercase text) :=
      Level.normalize_eq_ok.mpr ⟨h text rfl, rfl⟩
    simp only [validate, hn]
    rfl

namespace Solver

/-- The solver with another level in its configuration. -/
def atLevel (s : Solver μ) (level : Option String) : Solver μ :=
  s.reconfigure fun c => { c with logLevel := level }

/-- Solves in a row, each with a level of its own, and the records that each of them made. -/
def tells : List (Option String) → Solver μ → Logging → Option (List (Solved μ × List Event))
  | [], _, _ => some []
  | level :: levels, s, log => do
    let (r, made) ← (s.atLevel level).tell log
    let rest ← tells levels r.solver r.logging
    return (r, made) :: rest

end Solver

/-- The record reports the start of a logger. -/
def Event.isStart : Event → Bool
  | loggerStarted _ => true
  | _ => false

/-- These records apart from the starts of loggers. -/
def withoutStarts (records : List Event) : List Event :=
  records.filter (!·.isStart)

/-- A run does not report the start of a logger. -/
lemma Run.isStart_of_mem {run : Run μ} {e : Event} (h : e ∈ run.events) : e.isStart = false := by
  rw [events_eq, List.mem_append, List.mem_append] at h
  obtain (h | h) | h := h
  · obtain ⟨_, hround, he⟩ := List.mem_flatten.mp h
    obtain ⟨_, -, rfl⟩ := List.mem_map.mp hround
    have hdebug := Round.severity_events he
    cases e with
    | loggerStarted => cases hdebug
    | _ => rfl
  · split at h
    · obtain rfl := List.mem_singleton.mp h
      rfl
    · cases h
  · obtain rfl := List.mem_singleton.mp h
    rw [lastEvent]
    cases run.result <;> rfl

/-- What the run of a solve records is not the start of a logger. -/
lemma Solved.isStart_of_mem_traced {r : Solved μ} {e : Event} (h : e ∈ r.traced) :
    e.isStart = false := by
  have he := List.mem_of_mem_filter h
  cases hr : r.run with
  | none =>
    rw [hr] at he
    cases he
  | some run =>
    rw [hr] at he
    exact run.isStart_of_mem he

/-- The starts of loggers that can still be reported: one, unless a logger is installed. -/
def Logging.startsLeft (log : Logging) : ℕ :=
  if log.logger.isSome then 0 else 1

namespace Solver

/-- Before the run of a solve, the start of a logger with its maximum level is recorded or nothing. -/
lemma startRecords_cases (s : Solver μ) (log : Logging) : s.startRecords log = [] ∨
    log.logger = none ∧ (s.solve log).logging.logger.isSome = true ∧
      (s.solve log).logging.maximum ≠ .off ∧
      s.startRecords log = [.loggerStarted (s.solve log).logging.maximum] := by
  obtain h | ⟨hlog, severity, hasked, h⟩ := log.startRecords_cases (Call.solve s).accepted?
  · exact .inl h
  · have hsome := log.isSome_logger_apply (.solve s)
    rw [hasked, hlog] at hsome
    have hmaximum := s.maximum_solve log
    rw [hasked, Option.elim_some] at hmaximum
    rw [hmaximum]
    exact .inr ⟨hlog, hsome, nofun, h⟩

/-- Apart from the start of a logger, a solve records what its run does. -/
lemma withoutStarts_made (s : Solver μ) (log : Logging) :
    withoutStarts (s.made log) = (s.solve log).traced := by
  have hstart : withoutStarts (s.startRecords log) = [] := by
    obtain h | ⟨-, -, -, h⟩ := s.startRecords_cases log <;> rw [h] <;> rfl
  have htraced : withoutStarts (s.solve log).traced = (s.solve log).traced :=
    List.filter_eq_self.mpr fun e he => by rw [Solved.isStart_of_mem_traced he]; rfl
  rw [made, withoutStarts, List.filter_append]
  exact congrArg₂ (· ++ ·) hstart htraced

/-- A solve reports no more starts of loggers than were left before it. -/
lemma count_starts_made (s : Solver μ) (log : Logging) :
    (s.made log).countP Event.isStart + (s.solve log).logging.startsLeft ≤ log.startsLeft := by
  have htraced : (s.solve log).traced.countP Event.isStart = 0 :=
    List.countP_eq_zero.mpr fun e he => by rw [Solved.isStart_of_mem_traced he]; exact nofun
  rw [made, List.countP_append, htraced, Nat.add_zero]
  obtain h | ⟨hlog, hsome, -, h⟩ := s.startRecords_cases log
  · have hstays : log.logger.isSome = true → (s.solve log).logging.logger.isSome = true := by
      intro hlog
      have hsome := log.isSome_logger_apply (.solve s)
      rwa [hlog, Bool.true_or] at hsome
    rw [h, List.countP_nil, Nat.zero_add, Logging.startsLeft, Logging.startsLeft]
    split
    · exact Nat.zero_le _
    · exact (if_neg (fun hlog => absurd (hstays hlog) ‹_›)).ge
  · rw [h, Logging.startsLeft, Logging.startsLeft, if_pos hsome, hlog]
    exact le_rfl

end Solver

/-- What a solve answers and what it leaves of the solver, apart from the level. -/
def Solved.unlogged (r : Solved μ) : Except Error (Vec2 Float) × Option (Run μ) × Solver μ :=
  (r.result, r.run, r.solver.atLevel none)

/-- The start of a logger is recorded only first, and with the maximum level of the solve. -/
def StartsFirst (x : Solved μ × List Event) : Prop :=
  x.2 = withoutStarts x.2 ∨
    x.2 = .loggerStarted x.1.logging.maximum :: withoutStarts x.2

/--
Two solves that differ in their logging only. Apart from the start of a logger, the records of one are those
that its level lets through of the records of the other, if the other makes all of them.
-/
structure InLockstep (x x' : Solved μ × List Event) : Prop where
  result : x.1.result = x'.1.result
  run : x.1.run = x'.1.run
  solver : x.1.solver.atLevel none = x'.1.solver.atLevel none
  records : x'.1.logging.maximum = .upTo .debug → withoutStarts x.2 =
    (withoutStarts x'.2).filter (x.1.logging.maximum.allows ·.severity)
  silent : x.1.logging.maximum = .off → x.2 = []
  start : StartsFirst x
  start' : StartsFirst x'

namespace Solver

variable {s s' : Solver μ}

/-- A solve records the start of a logger at most, and then what its run records. -/
lemma startsFirst_made (s : Solver μ) (log : Logging) : StartsFirst (s.solve log, s.made log) := by
  rw [StartsFirst, withoutStarts_made, made]
  obtain h | ⟨-, -, -, h⟩ := s.startRecords_cases log
  · exact .inl (by rw [h]; rfl)
  · exact .inr (by rw [h]; rfl)

/-- At the level off, a solve makes no record. -/
lemma made_of_off {log : Logging} (h : (s.solve log).logging.maximum = .off) : s.made log = [] := by
  obtain hstart | ⟨-, -, hne, -⟩ := s.startRecords_cases log
  · rw [made, hstart, Solved.traced_of_off h]
    rfl
  · exact absurd h hne

/-- Solves with the same answers make the same records, as far as their levels let them. -/
lemma inLockstep_of_unlogged {log log' : Logging}
    (h : (s.solve log).unlogged = (s'.solve log').unlogged) :
    InLockstep (s.solve log, s.made log) (s'.solve log', s'.made log') := by
  obtain ⟨hresult, h⟩ := Prod.mk.inj h
  obtain ⟨hrun, hsolver⟩ := Prod.mk.inj h
  refine ⟨hresult, hrun, hsolver, fun hd => ?_, made_of_off, s.startsFirst_made log,
    s'.startsFirst_made log'⟩
  rw [withoutStarts_made, withoutStarts_made, Solved.traced_of_debug hd, ← hrun]
  rfl

/-- A solve answers the same with any level, under any logging. -/
lemma unlogged_atLevel {level : Option String} (h : Level.IsChoice level) (log log' : Logging) :
    ((s.atLevel level).solve log).unlogged = ((s.atLevel none).solve log').unlogged := by
  have hvalidate : (s.atLevel level).config.validate = (s.atLevel none).config.validate :=
    s.config.validate_atLevel h
  cases hv : (s.atLevel none).config.validate with
  | error e =>
    rw [solve_of_refused hv, solve_of_refused (hvalidate.trans hv)]
    rfl
  | ok =>
    have hrun : (s.atLevel level).run = (s.atLevel none).run :=
      ((s.atLevel none).isRun.noting s.config.seed level).eq
    rw [solve_of_isValid (Config.validate_iff.mp hv),
      solve_of_isValid (Config.validate_iff.mp (hvalidate.trans hv)), hrun]
    rfl

/-- So do solvers that differ in their level only. -/
lemma unlogged_eq (hs : s.atLevel none = s'.atLevel none) {level level' : Option String}
    (h : Level.IsChoice level) (h' : Level.IsChoice level') (log log' : Logging) :
    ((s.atLevel level).solve log).unlogged = ((s'.atLevel level').solve log').unlogged := by
  rw [unlogged_atLevel h log log, unlogged_atLevel h' log' log, hs]

/-- The solves of a row are the first one, and those that go on from it. -/
lemma tells_cons {levels : List (Option String)} {level : Option String} {log : Logging}
    {solves : List (Solved μ × List Event)}
    (h : ((s.atLevel level).solve log).solver.tells levels ((s.atLevel level).solve log).logging =
      some solves) :
    s.tells (level :: levels) log = some
      (((s.atLevel level).solve log, (s.atLevel level).made log) :: solves) := by
  simp only [tells, tell_eq, Option.bind_eq_bind, Option.bind_some, h]
  rfl

/-- In a row of solves, no more starts of loggers are reported than were left before the first. -/
lemma count_starts_tells {levels : List (Option String)} {log : Logging}
    {solves : List (Solved μ × List Event)} (h : s.tells levels log = some solves) :
    (solves.flatMap (·.2)).countP Event.isStart ≤ log.startsLeft := by
  induction levels generalizing s log solves with
  | nil =>
    cases h
    exact Nat.zero_le _
  | cons level levels ih =>
    simp only [tells, tell_eq, Option.bind_eq_bind, Option.bind_some] at h
    obtain ⟨rest, hrest, h⟩ := Option.bind_eq_some_iff.mp h
    cases h
    -- What the first solve leaves of the starts is what bounds those of the others.
    rw [List.flatMap_cons, List.countP_append]
    exact (Nat.add_le_add_left (ih hrest) _).trans ((s.atLevel level).count_starts_made log)

/-- Rows of solves with as many levels go on in lockstep. -/
lemma exists_tells (hs : s.atLevel none = s'.atLevel none) {levels levels' : List (Option String)}
    (hl : levels.length = levels'.length) (h : ∀ level ∈ levels, Level.IsChoice level)
    (h' : ∀ level ∈ levels', Level.IsChoice level) (log log' : Logging) :
    ∃ solves solves', s.tells levels log = some solves ∧ s'.tells levels' log' = some solves' ∧
      solves.length = levels.length ∧ List.Forall₂ InLockstep solves solves' := by
  induction levels generalizing levels' s s' log log' with
  | nil =>
    obtain rfl := List.length_eq_zero_iff.mp hl.symm
    exact ⟨[], [], rfl, rfl, rfl, .nil⟩
  | cons level levels ih =>
    cases levels' with
    | nil => cases hl
    | cons level' levels' =>
      obtain ⟨hlevel, h⟩ := List.forall_mem_cons.mp h
      obtain ⟨hlevel', h'⟩ := List.forall_mem_cons.mp h'
      have hlockstep := inLockstep_of_unlogged (unlogged_eq hs hlevel hlevel' log log')
      -- What the two solves leave again differs in the level only.
      obtain ⟨solves, solves', hsolves, hsolves', hlength, hall⟩ := ih hlockstep.solver
        (Nat.succ.inj hl) h h' ((s.atLevel level).solve log).logging
        ((s'.atLevel level').solve log').logging
      exact ⟨_, _, tells_cons hsolves, tells_cons hsolves', congrArg Nat.succ hlength,
        .cons hlockstep hall⟩

/--
Logging does not interfere. From solvers that differ in their level at most, solves are run in a row, with
any accepted levels and under any two states of logging. Each solve gives the same result, makes the same
run and leaves the same solver as the other, its level apart; and where the second makes its records at
debug, the records of the first are those of them that its level lets through, and none at the level off.
This is apart from the start of a logger, which can be the first record of a solve: it is made once at most
in the whole row, and not at all where a logger is installed before the first solve.
-/
theorem tells_lockstep {s s' : Solver μ} (hs : s.atLevel none = s'.atLevel none)
    {levels levels' : List (Option String)} (hl : levels.length = levels'.length)
    (h : ∀ level ∈ levels, Level.IsChoice level) (h' : ∀ level ∈ levels', Level.IsChoice level)
    (log log' : Logging) :
    ∃ solves solves', s.tells levels log = some solves ∧ s'.tells levels' log' = some solves' ∧
      solves.length = levels.length ∧ List.Forall₂ InLockstep solves solves' ∧
      (solves.flatMap (·.2)).countP Event.isStart ≤ log.startsLeft ∧
      (solves'.flatMap (·.2)).countP Event.isStart ≤ log'.startsLeft := by
  obtain ⟨solves, solves', hsolves, hsolves', hlength, hall⟩ := exists_tells hs hl h h' log log'
  exact ⟨solves, solves', hsolves, hsolves', hlength, hall, count_starts_tells hsolves,
    count_starts_tells hsolves'⟩

/-- With an accepted level, a solver of a valid configuration asks for this level. -/
lemma accepted?_atLevel {s : Solver μ} (h : s.config.IsValid) {level : Option String}
    (hl : Level.IsChoice level) :
    (Call.solve (s.atLevel level)).accepted? = level.bind Level.named? :=
  Call.accepted?_of_isValid (s := s.atLevel level) { h with level := hl }

/-- A level that is not accepted is the reason to refuse a configuration that is valid otherwise. -/
lemma exists_refused_atLevel {s : Solver μ} {text : String} (h : Text.lowercase text ∉ Level.names)
    (log : Logging) : ∃ e, ((s.atLevel (some text)).solve log).result = .error e := by
  cases hv : (s.atLevel (some text)).config.validate with
  | error e => exact ⟨e, by rw [solve_of_refused hv]⟩
  | ok => exact absurd ((Config.validate_iff.mp hv).level text rfl) h

/-- What the crossing has to report is kept quiet without a level, and made at debug. -/
theorem crossing_lockstep :
    ∃ x x', (crossing once).tells [none] {} = some [x] ∧
      (crossing once).tells [some "Debug"] { maximum := .upTo .warn } = some [x'] ∧
      x'.1.logging.maximum = .upTo .debug ∧ x.1.result = x'.1.result ∧ x.1.run = x'.1.run ∧
      x.2 = [] ∧ StartsFirst x' ∧
      withoutStarts x.2 = (withoutStarts x'.2).filter (x.1.logging.maximum.allows ·.severity) := by
  have hdebug : Level.IsChoice (some "Debug") := by
    rintro _ ⟨⟩
    decide +kernel
  have hvalid : ((crossing once).atLevel (some "Debug")).config.IsValid :=
    { isValid_once with level := hdebug }
  have hl : ([none] : List (Option String)).length = [some "Debug"].length := rfl
  obtain ⟨solves, solves', hsolves, hsolves', -, hall, -⟩ := tells_lockstep (s := crossing once) rfl
    hl (List.forall_mem_singleton.mpr nofun) (List.forall_mem_singleton.mpr hdebug) {}
    { maximum := .upTo .warn }
  rw [tells_cons rfl] at hsolves hsolves'
  cases hsolves
  cases hsolves'
  obtain ⟨hlockstep, -⟩ := List.forall₂_cons.mp hall
  have hoff : (((crossing once).atLevel none).solve {}).logging.maximum = .off := by
    rw [solve_of_isValid isValid_once, Logging.maximum_recordAll]
    rfl
  have hmax : (((crossing once).atLevel (some "Debug")).solve
      { maximum := .upTo .warn }).logging.maximum = .upTo .debug := by
    rw [solve_of_isValid hvalid, Logging.maximum_recordAll]
    decide +kernel
  exact ⟨_, _, tells_cons rfl, tells_cons rfl, hmax, hlockstep.result, hlockstep.run,
    hlockstep.silent hoff, hlockstep.start', hlockstep.records hmax⟩

/--
The start of a logger is no record that levels let through or not. In a process without a logger, the
crossing at level info records another start than at debug; without a level, under the maximum level info, it
records none. A level that is not accepted is no choice: the solve is refused, where the crossing is found
without it.
-/
theorem crossing_starts_differ :
    (∃ x x', (crossing once).tells [some "info"] {} = some [x] ∧
      (crossing once).tells [some "debug"] {} = some [x'] ∧
      x.1.logging.maximum = .upTo .info ∧ x'.1.logging.maximum = .upTo .debug ∧
      x.2 ≠ x'.2.filter (x.1.logging.maximum.allows ·.severity)) ∧
    (∃ x x', (crossing once).tells [none] { maximum := .upTo .info } = some [x] ∧
      (crossing once).tells [some "debug"] {} = some [x'] ∧
      x.1.logging.maximum = .upTo .info ∧ x'.1.logging.maximum = .upTo .debug ∧
      x.2 ≠ x'.2.filter (x.1.logging.maximum.allows ·.severity)) ∧
    ∃ x x' e q, (crossing once).tells [some "loud"] {} = some [x] ∧
      (crossing once).tells [none] {} = some [x'] ∧ x.1.result = .error e ∧ x'.1.result = .ok q := by
  have hchoice (text : String) (h : Text.lowercase text ∈ Level.names) :
      Level.IsChoice (some text) := by
    rintro _ ⟨⟩
    exact h
  have hinfo := accepted?_atLevel (s := crossing once) isValid_once
    (hchoice "info" (by decide +kernel))
  have hdebug := accepted?_atLevel (s := crossing once) isValid_once
    (hchoice "debug" (by decide +kernel))
  have hnone : (Call.solve ((crossing once).atLevel none)).accepted? = none :=
    accepted?_atLevel isValid_once nofun
  have hnamed : Level.named? "info" = some .info := by decide +kernel
  have hnamed' : Level.named? "debug" = some .debug := by decide +kernel
  rw [Option.bind_some, hnamed] at hinfo
  rw [Option.bind_some, hnamed'] at hdebug
  have hmax := maximum_of_asked hinfo {}
  have hmax' := maximum_of_asked hdebug {}
  have hlog : ({} : Logging).logger = none := rfl
  have hmade := made_of_installs hlog hinfo rfl
  have hmade' := made_of_installs hlog hdebug rfl
  have hquiet : (((crossing once).atLevel none).solve { maximum := .upTo .info }).logging.maximum =
      .upTo .info := by
    rw [maximum_solve, hnone]
    rfl
  refine ⟨⟨_, _, tells_cons rfl, tells_cons rfl, hmax, hmax', ?_⟩,
    ⟨_, _, tells_cons rfl, tells_cons rfl, hquiet, hmax', ?_⟩, ?_⟩
  · intro h
    rw [hmade, hmade', hmax] at h
    cases (List.cons.inj h).1
  · intro h
    -- Without a level nothing is installed, and the run does not report the start of a logger.
    have hmem : .loggerStarted (.upTo .debug) ∈
        ((crossing once).atLevel none).made { maximum := .upTo .info } := by
      refine (congrArg (Event.loggerStarted (.upTo .debug) ∈ ·) h).mpr ?_
      rw [hmade', hquiet]
      exact List.mem_filter.mpr ⟨List.mem_cons_self, rfl⟩
    rw [made, startRecords, hnone] at hmem
    cases Solved.isStart_of_mem_traced hmem
  · have hloud : Text.lowercase "loud" ∉ Level.names := by decide +kernel
    obtain ⟨e, he⟩ := exists_refused_atLevel (s := crossing once) hloud {}
    exact ⟨_, _, e, _, tells_cons rfl, tells_cons rfl, he, result_of_run isValid_once crossing_once {}⟩

end Solver

end PlanarNewton
