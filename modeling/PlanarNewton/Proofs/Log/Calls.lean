import PlanarNewton.Proofs.Log.Requests
import PlanarNewton.Proofs.Solver.Solve

/-!
# Logging over a sequence of calls

Logging is changed by requests for a logger and by solves, which ask for one themselves where their
configuration names a level. One call moves the maximum level to the one that it asks for, installs a
logger unless there is one, and then makes its records (`Call.apply_eq`). So over any sequence of calls
the maximum level is the last one accepted (`Logging.maximum_after`), and the logger that was installed
first keeps, in order, the records that its own level and the maximum level of their moment let through
(`Logging.logger_after`). A file is there if a call made one (`Logging.isSome_fileRecords?_after`). Main
statement: `Logging.calls_logged`.
-/

namespace PlanarNewton

/-- What a process does that concerns its logging: it asks for a logger, or a solver solves. -/
inductive Call where
  | ask (text : String) (target : LogTarget)
  | solve {μ : Type} (s : Solver μ)

namespace Call

/-- Logging after the call. -/
def apply : Call → Logging → Logging
  | ask text target, log => (log.start text target).2
  | solve s, log => (s.solve log).logging

/-- The level that the call asks for, if it is accepted and not off. -/
def accepted? : Call → Option Severity
  | ask _ (.unwritableFile _) => none
  | ask text _ => Level.named? text
  | solve s =>
    match s.config.validate with
    | .error _ => none
    | .ok () => s.config.logLevel.bind Level.named?

/-- A solve that is refused asks for no level. -/
lemma accepted?_of_refused {μ : Type} {s : Solver μ} {e : Error}
    (h : s.config.validate = .error e) : (solve s).accepted? = none := by
  rw [accepted?, h]

/-- A solve that is accepted asks for the level of its configuration. -/
lemma accepted?_of_isValid {μ : Type} {s : Solver μ} (h : s.config.IsValid) :
    (solve s).accepted? = s.config.logLevel.bind Level.named? := by
  rw [accepted?, Config.validate_iff.mpr h]

/-- The call makes a file for the log. -/
def makesFile : Call → Bool
  | ask text .file => (Level.named? text).isSome
  | _ => false

/-- A call that is not accepted makes no file. -/
lemma makesFile_of_not_accepted {c : Call} (h : c.accepted? = none) : c.makesFile = false := by
  cases c with
  | ask text target =>
    cases target with
    | file => exact Option.isSome_eq_false_iff.mpr (Option.isNone_iff_eq_none.mpr h)
    | terminal | unwritableFile => rfl
  | solve s => rfl

/-- The records that the call has to make after its request, as far as the levels let them through. -/
def events : Call → List Event
  | ask _ _ => []
  | solve s =>
    match s.config.validate with
    | .error _ => []
    | .ok () => s.run.events

end Call

namespace Logging

variable {log : Logging} {l : Logger} {calls : List Call}

/-- Logging after calls in a row. -/
def after (log : Logging) (calls : List Call) : Logging :=
  calls.foldl (fun log c => c.apply log) log

/-- The records that calls have to make, each with the maximum level in force at its moment. -/
def told : Logging → List Call → List (Level × Event)
  | _, [] => []
  | log, c :: calls => c.events.map ((c.apply log).maximum, ·) ++ told (c.apply log) calls

/-- The records that the maximum level of their moment and a second level both let through. -/
def admitted (level : Level) (records : List (Level × Event)) : List Event :=
  (records.filter fun r => r.1.allows r.2.severity && level.allows r.2.severity).map (·.2)

/-- Records are admitted one by one. -/
lemma admitted_append (level : Level) (rs rs' : List (Level × Event)) :
    admitted level (rs ++ rs') = admitted level rs ++ admitted level rs' := by
  rw [admitted, List.filter_append, List.map_append]
  rfl

/-- A request is accepted or changes nothing. -/
lemma start_snd (log : Logging) (text : String) (target : LogTarget) :
    (log.start text target).2 =
      (Call.ask text target).accepted?.elim log (log.accept (Call.ask text target).makesFile) := by
  cases target with
  | unwritableFile cause => exact log.start_unwritableFile text cause
  | terminal =>
    show _ = (Level.named? text).elim log (log.accept false)
    cases hn : Level.named? text with
    | none => exact start_of_unnamed hn log _
    | some severity => exact start_terminal hn log
  | file =>
    show _ = (Level.named? text).elim log (log.accept (Level.named? text).isSome)
    cases hn : Level.named? text with
    | none => exact start_of_unnamed hn log _
    | some severity => exact start_file hn log

end Logging

namespace Call

open Logging

/-- A call makes its request, and then its records. -/
lemma apply_eq (c : Call) (log : Logging) :
    c.apply log = (c.accepted?.elim log (log.accept c.makesFile)).recordAll c.events := by
  cases c with
  | ask text target => exact log.start_snd text target
  | solve s =>
    simp only [apply, accepted?, makesFile, events]
    cases hv : s.config.validate with
    | error e =>
      rw [Solver.solve_of_refused hv]
      rfl
    | ok =>
      rw [Solver.solve_of_isValid (Config.validate_iff.mp hv), Solver.startLogging_snd]

end Call

namespace Logging

variable {log : Logging} {l : Logger} {calls : List Call}

/-- A record changes only what the logger keeps, as far as both levels admit it. -/
lemma record_eq (log : Logging) (e : Event) :
    log.record e = { log with logger := log.logger.map fun l => { l with
      records := l.records ++ (admitted l.level [(log.maximum, e)]).toArray } } := by
  obtain ⟨maximum, logger, unusedFile⟩ := log
  cases hm : maximum.allows e.severity with
  | false => cases logger <;> simp [record, admitted, hm]
  | true =>
    cases logger with
    | none => simp [record, hm]
    | some l => cases hl : l.level.allows e.severity <;> simp [record, Logger.record, admitted, hm, hl]

/-- Making records changes only what the logger has kept. -/
lemma recordAll_eq (log : Logging) (events : List Event) :
    log.recordAll events = { log with logger := log.logger.map fun l => { l with
      records := l.records ++ (admitted l.level (events.map (log.maximum, ·))).toArray } } := by
  induction events generalizing log with
  | nil =>
    obtain ⟨maximum, logger, unusedFile⟩ := log
    cases logger <;> simp [recordAll, admitted]
  | cons e events ih =>
    have hsplit (level : Level) : admitted level ((log.maximum, e) :: events.map (log.maximum, ·)) =
        admitted level [(log.maximum, e)] ++ admitted level (events.map (log.maximum, ·)) :=
      admitted_append level [_] _
    rw [recordAll, List.foldl_cons]
    refine (ih _).trans ?_
    rw [maximum_record, record_eq]
    cases log.logger with
    | none => rfl
    | some l => simp [hsplit]

/-- A call moves the maximum level to the one that is accepted, if any. -/
lemma maximum_apply (log : Logging) (c : Call) :
    (c.apply log).maximum = c.accepted?.elim log.maximum .upTo := by
  rw [c.apply_eq, maximum_recordAll]
  cases c.accepted? with
  | none => rfl
  | some severity => exact log.maximum_accept c.makesFile severity

/-- The maximum level is the one that was accepted last. -/
lemma maximum_after (log : Logging) (calls : List Call) :
    (log.after calls).maximum = (calls.filterMap Call.accepted?).getLast?.elim log.maximum .upTo := by
  induction calls generalizing log with
  | nil => rfl
  | cons c calls ih =>
    rw [after, List.foldl_cons]
    refine (ih _).trans ?_
    rw [maximum_apply]
    cases hc : c.accepted? with
    | none => rw [List.filterMap_cons_none hc, Option.elim_none]
    | some severity =>
      rw [List.filterMap_cons_some hc, List.getLast?_cons]
      cases (calls.filterMap Call.accepted?).getLast? <;> rfl

/-- Over one call, an installed logger keeps what both levels let through. -/
lemma logger_apply (h : log.logger = some l) (c : Call) :
    (c.apply log).logger = some { l with
      records := l.records ++ (admitted l.level (c.events.map ((c.apply log).maximum, ·))).toArray } := by
  have hrequest : (c.accepted?.elim log (log.accept c.makesFile)).logger = some l := by
    cases c.accepted? with
    | none => exact h
    | some severity =>
      rw [Option.elim_some, accept, h]
  have hmaximum : (c.apply log).maximum = (c.accepted?.elim log (log.accept c.makesFile)).maximum := by
    rw [c.apply_eq, maximum_recordAll]
  rw [hmaximum, c.apply_eq, recordAll_eq, hrequest]
  rfl

/-- The logger that is installed stays, and keeps what both levels let through. -/
lemma logger_after (h : log.logger = some l) (calls : List Call) :
    (log.after calls).logger = some { l with
      records := l.records ++ (admitted l.level (log.told calls)).toArray } := by
  induction calls generalizing log l with
  | nil =>
    rw [after, List.foldl_nil, h]
    simp [told, admitted]
  | cons c calls ih =>
    rw [after, List.foldl_cons]
    refine (ih (logger_apply h c)).trans ?_
    rw [told, admitted_append]
    simp

/-- Without a logger, calls that are not accepted change nothing. -/
lemma after_of_not_accepted (h : log.logger = none) (hc : ∀ c ∈ calls, c.accepted? = none) :
    log.after calls = log := by
  induction calls with
  | nil => rfl
  | cons c calls ih =>
    obtain ⟨hc, hcalls⟩ := List.forall_mem_cons.mp hc
    have happly : c.apply log = log := by
      obtain ⟨maximum, logger, unusedFile⟩ := log
      obtain rfl : logger = none := h
      rw [c.apply_eq, hc, recordAll_eq]
      rfl
    rw [after, List.foldl_cons, happly]
    exact ih hcalls

/-- A call that is accepted leaves a logger installed. -/
lemma isSome_logger_apply (log : Logging) (c : Call) :
    (c.apply log).logger.isSome = (log.logger.isSome || c.accepted?.isSome) := by
  rw [c.apply_eq, recordAll_eq, Option.isSome_map]
  cases c.accepted? with
  | none => simp
  | some severity =>
    rw [Option.elim_some, accept]
    cases log.logger with
    | none => simp [record_eq]
    | some l => simp

/-- There is a logger after the calls if there was one, or if a call was accepted. -/
lemma isSome_logger_after (log : Logging) (calls : List Call) :
    (log.after calls).logger.isSome = (log.logger.isSome || calls.any (·.accepted?.isSome)) := by
  induction calls generalizing log with
  | nil => simp [after]
  | cons c calls ih =>
    rw [after, List.foldl_cons]
    refine (ih _).trans ?_
    rw [isSome_logger_apply, List.any_cons, Bool.or_assoc]

/-- A file is there if the logger writes to one, or if one was made for nothing. -/
lemma isSome_fileRecords? (log : Logging) :
    log.fileRecords?.isSome = (log.logger.any (·.hasFile) || log.unusedFile) := by
  obtain ⟨maximum, logger, unusedFile⟩ := log
  cases logger with
  | none => cases unusedFile <;> rfl
  | some l => cases hl : l.hasFile <;> cases unusedFile <;> simp [fileRecords?, Option.filter, hl]

/-- Records are not made in new files. -/
lemma isSome_fileRecords?_recordAll (log : Logging) (events : List Event) :
    (log.recordAll events).fileRecords?.isSome = log.fileRecords?.isSome := by
  rw [recordAll_eq, isSome_fileRecords?, isSome_fileRecords?]
  cases log.logger <;> rfl

/-- An accepted request adds a file if it asks for one. -/
lemma isSome_fileRecords?_accept (log : Logging) (file : Bool) (severity : Severity) :
    (log.accept file severity).fileRecords?.isSome = (log.fileRecords?.isSome || file) := by
  rw [accept]
  cases hl : log.logger with
  | none =>
    rw [record_eq, isSome_fileRecords?, isSome_fileRecords?, hl]
    simp [Bool.or_comm]
  | some l =>
    rw [isSome_fileRecords?, isSome_fileRecords?, hl]
    simp [Bool.or_assoc]

/-- A file is there after the calls if there was one, or if one of them makes one. -/
lemma isSome_fileRecords?_after (log : Logging) (calls : List Call) :
    (log.after calls).fileRecords?.isSome = (log.fileRecords?.isSome || calls.any (·.makesFile)) := by
  induction calls generalizing log with
  | nil => simp [after]
  | cons c calls ih =>
    have happly : (c.apply log).fileRecords?.isSome = (log.fileRecords?.isSome || c.makesFile) := by
      rw [c.apply_eq, isSome_fileRecords?_recordAll]
      cases hc : c.accepted? with
      | none => rw [Option.elim_none, Call.makesFile_of_not_accepted hc, Bool.or_false]
      | some severity => exact log.isSome_fileRecords?_accept c.makesFile severity
    rw [after, List.foldl_cons]
    refine (ih _).trans ?_
    rw [happly, List.any_cons, Bool.or_assoc]

/-- What a logger with a file has kept is in the file. -/
lemma fileRecords?_of_hasFile (h : log.logger = some l) (hl : l.hasFile = true) :
    log.fileRecords? = some l.records.toList := by
  simp [fileRecords?, h, Option.filter, hl]

/-- Without a logger that writes to it, a file is empty. -/
lemma fileRecords?_of_not_hasFile (h : log.logger = some l) (hl : l.hasFile = false)
    (hfile : log.fileRecords?.isSome = true) : log.fileRecords? = some [] := by
  have hunused : log.unusedFile = true := by
    rw [isSome_fileRecords?, h] at hfile
    simpa [hl] using hfile
  simp [fileRecords?, h, Option.filter, hl, hunused]

/-- In a row of calls, a request for a file that names a level is accepted between the others. -/
lemma after_ask (log : Logging) {text : String} {severity : Severity}
    (h : Level.named? text = some severity) (before later : List Call) :
    log.after (before ++ .ask text .file :: later) =
      ((log.after before).accept true severity).after later := by
  have happly : (Call.ask text .file).apply (log.after before) = (log.after before).accept true severity := by
    rw [Call.apply, start_snd]
    simp [Call.accepted?, Call.makesFile, h]
  rw [after, List.foldl_append, List.foldl_cons]
  exact congrArg (·.after later) happly

section Request

variable {before later : List Call} {text : String} {severity : Severity}

/-- Where a logger had been installed before, it stays and writes to no file. -/
lemma fileRecords?_of_earlier (hnamed : Level.named? text = some severity)
    (hbefore : ∀ c ∈ before, c.makesFile = false) (h : ∃ c ∈ before, c.accepted?.isSome = true) :
    (after {} (before ++ .ask text .file :: later)).fileRecords? = some [] := by
  have hfile := isSome_fileRecords?_after {} (before ++ .ask text .file :: later)
  have hlogger : (after {} before).logger.isSome = true := by
    rw [isSome_logger_after]
    exact Bool.or_eq_true_iff.mpr (.inr (List.any_eq_true.mpr h))
  obtain ⟨l, hl⟩ := Option.isSome_iff_exists.mp hlogger
  -- The logger of the earlier call has no file, and the request does not replace it.
  have hnofile : l.hasFile = false := by
    have h := isSome_fileRecords?_after {} before
    rw [List.any_eq_false.mpr fun c hc => by simp [hbefore c hc], isSome_fileRecords?, hl] at h
    exact (Bool.or_eq_false_iff.mp h).1
  have hstays : ((after {} before).accept true severity).logger = some l := by
    rw [accept, hl]
  rw [after_ask {} hnamed] at hfile ⊢
  refine fileRecords?_of_not_hasFile (logger_after hstays later) hnofile (hfile.trans ?_)
  simp [Call.makesFile, hnamed]

/-- The first request that is accepted gets its file, with what its logger keeps. -/
lemma fileRecords?_of_first (hnamed : Level.named? text = some severity)
    (hnone : ∀ c ∈ before, c.accepted? = none) :
    (after {} (before ++ .ask text .file :: later)).fileRecords? = some
      ((if (Level.upTo severity).allows .info then [.loggerStarted (.upTo severity)] else []) ++
        admitted (.upTo severity) ((after {} (before ++ [.ask text .file])).told later)) := by
  have hnologger : (after {} before).logger = none := by
    rw [after_of_not_accepted rfl hnone]
  have hinstalled := logger_accept hnologger true severity
  rw [after_ask {} hnamed, after_ask {} hnamed before [],
    fileRecords?_of_hasFile (logger_after hinstalled later) rfl, Array.toList_append]
  rfl

end Request

/--
Logging over any sequence of calls, from a process without a logger and with the maximum level off.
The maximum level is the last one that was accepted. Requests that name no level, or off, or a file that
cannot be made, change nothing at any time. There is a log file if a call made one. It stays empty where the
logger that had been installed before has none; and where no call had been accepted before, it begins with
the start of the logger, if its level lets that through, and goes on with the records of the later calls that
both the level of the logger and the maximum level of their moment let through, in order.
-/
theorem calls_logged (calls : List Call) :
    (after {} calls).maximum = (calls.filterMap Call.accepted?).getLast?.elim .off .upTo ∧
    (∀ text target, ((∃ e, Level.parse text = .error e) ∨ Level.parse text = .ok .off ∨
        ∃ cause, target = .unwritableFile cause) →
      (Call.ask text target).apply (after {} calls) = after {} calls) ∧
    (after {} calls).fileRecords?.isSome = calls.any (·.makesFile) ∧
    ∀ before text severity later, calls = before ++ .ask text .file :: later →
      Level.named? text = some severity →
      ((∀ c ∈ before, c.makesFile = false) → (∃ c ∈ before, c.accepted?.isSome = true) →
        (after {} calls).fileRecords? = some []) ∧
      ((∀ c ∈ before, c.accepted? = none) → (after {} calls).fileRecords? = some
        ((if (Level.upTo severity).allows .info then [.loggerStarted (.upTo severity)] else []) ++
          admitted (.upTo severity) ((after {} (before ++ [.ask text .file])).told later))) := by
  refine ⟨maximum_after {} calls, ?_, isSome_fileRecords?_after {} calls, ?_⟩
  · intro text target h
    have hnone : (Call.ask text target).accepted? = none := by
      rcases h with ⟨e, h⟩ | h | ⟨cause, rfl⟩
      · cases target <;> simp [Call.accepted?, Level.named?, h]
      · cases target <;> simp [Call.accepted?, Level.named?, h]
      · rfl
    rw [Call.apply, start_snd, hnone]
    rfl
  · rintro before text severity later rfl hnamed
    exact ⟨fileRecords?_of_earlier hnamed, fileRecords?_of_first hnamed⟩

/-- A solver of the crossing that asks for its debug records. -/
def chatty : Call :=
  .solve (Solver.crossing { Solver.once with logLevel := some "debug" })

/-- The configuration of that solver is accepted. -/
lemma isValid_chatty : ({ Solver.once with logLevel := some "debug" } : Config).IsValid := by
  have hnames : Text.lowercase "debug" ∈ Level.names := by decide +kernel
  exact { Solver.isValid_once with level := by rintro _ ⟨⟩; exact hnames }

/-- Its solve asks for the level debug. -/
lemma accepted?_chatty : chatty.accepted? = some .debug := by
  have hnamed : Level.named? "debug" = some .debug := by decide +kernel
  exact (Call.accepted?_of_isValid isValid_chatty).trans hnamed

/-- A file of level info keeps no debug records, and it stays empty where the solver came before it. -/
theorem chatty_logged :
    (after {} [.ask "loud" .terminal, .ask "Info" .file, chatty]).maximum = .upTo .debug ∧
    Level.named? "loud" = none ∧ Level.named? "Info" = some .info ∧
    (after {} [.ask "loud" .terminal, .ask "Info" .file, chatty]).fileRecords? =
      some ([.loggerStarted (.upTo .info)] ++ admitted (.upTo .info)
        ((after {} [.ask "loud" .terminal, .ask "Info" .file]).told [chatty])) ∧
    Level.parse "none" = .ok .off ∧
    (Call.ask "none" .file).apply (after {} [chatty, .ask "Info" .file]) =
      after {} [chatty, .ask "Info" .file] ∧
    (after {} [chatty, .ask "Info" .file]).fileRecords? = some [] := by
  have hloud : Level.named? "loud" = none := by decide +kernel
  have hinfo : Level.named? "Info" = some .info := by decide +kernel
  have hnone : Level.parse "none" = .ok .off := eq_ok_of_toOption (by decide +kernel)
  obtain ⟨hmaximum, -, -, hfile⟩ := calls_logged [.ask "loud" .terminal, .ask "Info" .file, chatty]
  obtain ⟨-, hstill, -, hempty⟩ := calls_logged [chatty, .ask "Info" .file]
  refine ⟨?_, hloud, hinfo, ?_, hnone, hstill "none" .file (.inr (.inl hnone)), ?_⟩
  · rw [hmaximum]
    simp [Call.accepted?, hloud, hinfo, List.filterMap_cons_some accepted?_chatty]
  · exact (hfile [.ask "loud" .terminal] "Info" .info [chatty] rfl hinfo).2
      (by simp [Call.accepted?, hloud])
  · exact (hempty [chatty] "Info" .info [] rfl hinfo).1 (by simp [Call.makesFile, chatty])
      ⟨chatty, by simp, by rw [accepted?_chatty]; rfl⟩

/--
A file does not always get the records that its level lets through: where a solve has installed the logger
before the request, it stays empty. Nor does a level that can be accepted always come into force: a solve
whose configuration is refused for another reason does not ask for it.
-/
theorem chatty_spoils_file :
    ¬(∀ before text severity later, Level.named? text = some severity →
      (∀ c ∈ before, c.makesFile = false) → (∀ c ∈ later, c.makesFile = false) →
      (after {} (before ++ .ask text .file :: later)).fileRecords? = some
        ((if (Level.upTo severity).allows .info then [.loggerStarted (.upTo severity)] else []) ++
          admitted (.upTo severity) ((after {} (before ++ [.ask text .file])).told later))) ∧
    (after {} [chatty, .ask "Info" .file, chatty]).fileRecords? = some [] ∧
    Level.named? "error" = some .error ∧
    (after {} [.ask "debug" .file, .solve (Solver.crossing { Solver.meagre with
      logLevel := some "error" })]).maximum = .upTo .debug := by
  have hinfo : Level.named? "Info" = some .info := by decide +kernel
  have hdebug : (Call.ask "debug" .file).accepted? = some .debug := by decide +kernel
  have hquiet : ∀ c ∈ [chatty], c.makesFile = false := by simp [Call.makesFile, chatty]
  have hempty (later : List Call) :
      (after {} ([chatty] ++ .ask "Info" .file :: later)).fileRecords? = some [] :=
    fileRecords?_of_earlier hinfo hquiet ⟨chatty, by simp, by rw [accepted?_chatty]; rfl⟩
  refine ⟨fun h => ?_, hempty [chatty], by decide +kernel, ?_⟩
  · have hfile := h [chatty] "Info" .info [] hinfo hquiet (by simp)
    rw [hempty []] at hfile
    cases hfile
  · obtain ⟨e, he⟩ : ∃ e, (Solver.crossing { Solver.meagre with
        logLevel := some "error" }).config.validate = .error e :=
      Solver.exists_error_meagre (some "error")
    rw [maximum_after, List.filterMap_cons_some hdebug,
      List.filterMap_cons_none (Call.accepted?_of_refused he)]
    rfl

end Logging

end PlanarNewton
