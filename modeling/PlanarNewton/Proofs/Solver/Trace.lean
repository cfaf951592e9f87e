import PlanarNewton.Proofs.Solver.Cost
import PlanarNewton.Proofs.Solver.Safety

/-!
# The log as a trace of the measures

A solve keeps two accounts: it makes records as it goes, and it enters its attempts in the measures. At
the level debug all records of its run are made (`Solver.traced_of_debug`), and they come in one block for
each round (`Round.IsBlock`). The records of failed attempts and the measures grow round by round; read off
the rounds that failed, they say the same (`Told.of_failed`). All rounds failed but the last of a run that
found a solution (`IsRun.exists_failed`), which only adds its steps (`Solver.solve_trace`). What can come
before the records of the run is the start of a logger that the solve installs
(`Solver.startRecords_of_debug`).
-/

namespace PlanarNewton

variable {μ : Type}

/-- What a record says of a failed attempt: its number, the failure, and the iterations charged. -/
def Event.failure? : Event → Option (ℕ × Failure × ℕ)
  | attemptFailed number _ failure iterations => some (number, failure, iterations)
  | _ => none

namespace Round

/-- The attempt of the round failed. -/
def HasFailed (r : Round) : Prop :=
  ∃ failure, r.outcome = .failed failure

/--
The records of a round: its steps with numbers from one on, each at the visit that it begins from, and
then its failure if it failed.
-/
structure IsBlock (r : Round) (number : ℕ) (block : List Event) : Prop where
  iterations : ∀ i < r.steps, ∃ v, r.visits[i]? = some v ∧
    block[i]? = some (.iteration (i + 1) v.point v.evaluation.objective)
  ending : block.drop r.steps = match r.outcome with
    | .converged .. => []
    | .failed failure => [.attemptFailed number r.start failure (max r.steps 1)]

/-- A round that visited a point for each of its steps makes a block. -/
lemma isBlock_events {r : Round} (h : r.steps ≤ r.visits.length) (number : ℕ) :
    r.IsBlock number (r.events number) := by
  have hlength : ((r.visits.take r.steps).zipIdx 1).length = r.steps := by
    rw [List.length_zipIdx, List.length_take, min_eq_left h]
  constructor
  · intro i hi
    have hv : i < r.visits.length := hi.trans_le h
    refine ⟨r.visits[i], List.getElem?_eq_getElem hv, ?_⟩
    rw [events_eq, List.getElem?_append_left (by rwa [List.length_map, hlength]),
      List.getElem?_map, List.getElem?_zipIdx, List.getElem?_take_of_lt hi,
      List.getElem?_eq_getElem hv, Nat.add_comm]
    rfl
  · rw [events_eq]
    exact List.drop_left' (by rw [List.length_map, hlength])

/-- The only record of a failed attempt is the last one of its round. -/
lemma filterMap_events (r : Round) (number : ℕ) : (r.events number).filterMap Event.failure? =
    r.outcome.failure?.toList.map fun failure => (number, failure, max r.steps 1) := by
  have hsteps {visits : List (Visit × ℕ)} {f : Visit × ℕ → Event}
      (h : ∀ x, (f x).failure? = none) : (visits.map f).filterMap Event.failure? = [] := by
    rw [List.filterMap_map]
    exact List.filterMap_eq_nil_iff.mpr fun x _ => h x
  rw [events_eq, List.filterMap_append, hsteps fun _ => rfl]
  cases r.outcome <;> rfl

end Round

/-- What the records of these rounds say of failed attempts, in order. -/
def told (rounds : List Round) : List (ℕ × Failure × ℕ) :=
  (rounds.zipIdx 1).flatMap fun (r, i) => (r.events i).filterMap Event.failure?

/-- One more round adds what its records say. -/
lemma told_concat (rounds : List Round) (r : Round) :
    told (rounds ++ [r]) =
      told rounds ++ (r.events (rounds.length + 1)).filterMap Event.failure? := by
  rw [told, List.zipIdx_append, List.flatMap_append, Nat.add_comm]
  exact congrArg _ (List.flatMap_singleton ..)

/-- Records of failed attempts that agree with the measures of so many rounds. -/
structure Told (records : List (ℕ × Failure × ℕ)) (count : ℕ) (m : Measures) : Prop where
  numbers : records.map (·.1) = List.range' 1 count
  failures : ∀ kind, (records.map (·.2.1)).count kind = m.failures.count kind
  iterations : (records.map (·.2.2)).sum = m.totalIterations

/-- The records of rounds that failed agree with the tally of these rounds. -/
theorem Told.of_failed {rounds : List Round} (h : ∀ r ∈ rounds, r.HasFailed) :
    Told (told rounds) rounds.length (tally rounds) := by
  induction rounds using List.reverseRecOn with
  | nil => exact ⟨rfl, fun kind => by cases kind <;> rfl, rfl⟩
  | append_singleton rounds r ih =>
    obtain ⟨failure, hf⟩ := h r (List.mem_append_right _ List.mem_cons_self)
    obtain ⟨hnumbers, hfailures, hiterations⟩ := ih fun r hr => h r (List.mem_append_left _ hr)
    have htold : told (rounds ++ [r]) =
        told rounds ++ [(rounds.length + 1, failure, max r.steps 1)] := by
      rw [told_concat, r.filterMap_events, hf]
      rfl
    have hentry : (tally (rounds ++ [r])).failures = (tally rounds).failures.record failure ∧
        (tally (rounds ++ [r])).totalIterations =
          (tally rounds).totalIterations + max r.steps 1 := by
      rw [tally_concat, Measures.enter, hf]
      exact ⟨rfl, rfl⟩
    rw [htold]
    constructor
    · rw [List.map_append, hnumbers, List.length_append, List.length_singleton,
        List.range'_concat, Nat.one_mul, Nat.add_comm 1]
      rfl
    · intro kind
      rw [List.map_append, List.count_append, hfailures, hentry.1, FailureCounts.count_record]
      cases failure <;> cases kind <;> rfl
    · rw [List.map_append, List.sum_append, hiterations, hentry.2]
      rfl

/-- A round that converged, if there is one, is not told of and adds its steps. -/
lemma told_append (rounds : List Round) {last : Option Round}
    (h : ∀ r ∈ last, ∃ q x, r.outcome = .converged q x) :
    told (rounds ++ last.toList) = told rounds ∧
      (tally (rounds ++ last.toList)).failures = (tally rounds).failures ∧
      (tally (rounds ++ last.toList)).totalIterations =
        (tally rounds).totalIterations + last.elim 0 (·.steps) := by
  cases last with
  | none =>
    rw [Option.toList_none, List.append_nil]
    exact ⟨rfl, rfl, rfl⟩
  | some r =>
    obtain ⟨q, x, ho⟩ := h r rfl
    rw [Option.toList_some, told_concat, r.filterMap_events, tally_concat, Measures.enter, ho]
    exact ⟨List.append_nil _, rfl, rfl⟩

namespace Run

/-- The severities of the records of a run, in order. -/
lemma map_severity_events (run : Run μ) :
    ∃ n, run.events.map (·.severity) = List.replicate n .debug ++
      (if run.givenUp.isSome then [.warn] else []) ++
      [if run.result.isOk then .info else .error] := by
  refine ⟨((run.rounds.zipIdx 1).map fun (r, i) => r.events i).flatten.length, ?_⟩
  have hrounds : ∀ e ∈ ((run.rounds.zipIdx 1).map fun (r, i) => r.events i).flatten,
      e.severity = .debug := by
    intro e he
    obtain ⟨events, hevents, he⟩ := List.mem_flatten.mp he
    obtain ⟨_, -, rfl⟩ := List.mem_map.mp hevents
    exact Round.severity_events he
  have hgivenUp : (if run.givenUp.isSome then
      [Event.samplingGivenUp run.measures.rejectedStarts] else []).map (·.severity) =
      if run.givenUp.isSome then [.warn] else [] := by
    split <;> rfl
  have hlast : [run.lastEvent].map (·.severity) = [if run.result.isOk then .info else .error] := by
    rw [lastEvent]
    cases run.result <;> rfl
  rw [events_eq, List.map_append, List.map_append, hgivenUp, hlast,
    List.map_congr_left hrounds, List.map_const']

/-- No other records than those of the rounds tell of failed attempts. -/
lemma filterMap_events (run : Run μ) : run.events.filterMap Event.failure? = told run.rounds := by
  have hgivenUp : (if run.givenUp.isSome then
      [Event.samplingGivenUp run.measures.rejectedStarts] else []).filterMap Event.failure? = [] := by
    split <;> rfl
  have hlast : [run.lastEvent].filterMap Event.failure? = [] := by
    rw [lastEvent]
    cases run.result <;> rfl
  rw [events, List.filterMap_append, List.filterMap_append, hgivenUp, hlast, List.append_nil,
    List.append_nil, List.filterMap_flatMap, told]

/-- A sampling that was given up costs no iterations. -/
lemma totalIterations_ledger (run : Run μ) :
    run.ledger.totalIterations = (tally run.rounds).totalIterations := by
  rw [ledger]
  cases run.givenUp <;> rfl

/-- A sampling that was given up is one more violated constraint. -/
lemma count_ledger (run : Run μ) (kind : Failure) :
    run.ledger.failures.count kind = (tally run.rounds).failures.count kind +
      (if run.givenUp.isSome ∧ kind = .constraintViolated then 1 else 0) := by
  rw [ledger]
  cases run.givenUp with
  | none => simp
  | some refused =>
    show ((tally run.rounds).failures.record .constraintViolated).count kind = _
    rw [FailureCounts.count_record]
    cases kind <;> rfl

end Run

namespace Equations

variable {s : Equations Float μ} {c : Config} {p : Progress μ} {run : Run μ}

/-- All rounds of a run failed, but the last one of a run that found a solution. -/
lemma IsRun.exists_failed (h : s.IsRun c p run) (hp : ∀ r ∈ p.rounds, r.HasFailed) :
    ∃ (failed : List Round) (last : Option Round), run.rounds = failed ++ last.toList ∧
      (∀ r ∈ failed, r.HasFailed) ∧ (last = none → ∃ e, run.result = .error e) ∧
      ∀ r ∈ last, ∃ q x, r.outcome = .converged q x ∧ run.result = .ok q := by
  have hreverse {p : Progress μ} (hp : ∀ r ∈ p.rounds, r.HasFailed) :
      ∀ r ∈ p.rounds.reverse, r.HasFailed :=
    fun r hr => hp r (List.mem_reverse.mp hr)
  induction h with
  | @spent p => exact ⟨_, none, (List.append_nil _).symm, hreverse hp, fun _ => ⟨_, rfl⟩, nofun⟩
  | @givenUp p => exact ⟨_, none, (List.append_nil _).symm, hreverse hp, fun _ => ⟨_, rfl⟩, nofun⟩
  | @solved p d start a q r h ho =>
    refine ⟨p.rounds.reverse, some (d.round start a), List.reverse_cons, hreverse hp, nofun, ?_⟩
    intro r' hr
    cases hr
    exact ⟨q, r, ho, rfl⟩
  | again _ ho _ ih => exact ih (List.forall_mem_cons.mpr ⟨⟨_, ho⟩, hp⟩)

/-- An attempt visits a point for each of its steps. -/
lemma IsRound.steps_le_length {d : Draw} {start : Vec2 Float} {a : Attempt μ}
    (h : s.IsRound c p d start a) : (d.round start a).steps ≤ (d.round start a).visits.length := by
  show a.steps ≤ a.visits.length
  cases h.attempt.counts with
  | looked hl => exact hl ▸ Nat.le_succ _
  | stepped hl => exact hl.ge

end Equations

namespace Solver

/-- At the level debug, a solve records all that its run tells. -/
lemma traced_of_debug {s : Solver μ} {log : Logging} (hc : s.config.IsValid)
    (hd : (s.solve log).logging.maximum = .upTo .debug) : (s.solve log).traced = s.run.events := by
  rw [Solved.traced_of_debug hd, solve_of_isValid hc]
  rfl

/-- At the level debug, the start of a logger is recorded where one is installed by the solve. -/
lemma startRecords_of_debug {s : Solver μ} {log : Logging} (hc : s.config.IsValid)
    (hd : (s.solve log).logging.maximum = .upTo .debug) : s.startRecords log =
      if log.logger.isNone ∧ (s.config.logLevel.bind Level.named?).isSome then
        [.loggerStarted (.upTo .debug)] else [] := by
  rw [maximum_solve, Call.accepted?_of_isValid hc] at hd
  rw [startRecords, Call.accepted?_of_isValid hc, Logging.startRecords]
  cases log.logger with
  | some l => rfl
  | none =>
    cases hasked : s.config.logLevel.bind Level.named? with
    | none => rfl
    | some severity =>
      -- The maximum level is the one that was asked for.
      rw [hasked] at hd
      cases hd
      rfl

/-- The records of a run in blocks, one for each of its rounds. -/
lemma exists_blocks (s : Solver μ) : ∃ blocks : List (List Event),
    blocks.length = s.run.rounds.length ∧
    (∀ j (r : Round), s.run.rounds[j]? = some r →
      ∃ block, blocks[j]? = some block ∧ r.IsBlock (j + 1) block) ∧
    s.run.events = blocks.flatten ++
      (if s.run.givenUp.isSome then [.samplingGivenUp s.run.measures.rejectedStarts] else []) ++
      [s.run.lastEvent] := by
  have hsteps : ∀ r ∈ s.run.rounds, r.steps ≤ r.visits.length :=
    s.isRun.forall_rounds (P := fun r => r.steps ≤ r.visits.length) (·.steps_le_length)
      (List.forall_mem_nil _)
  refine ⟨(s.run.rounds.zipIdx 1).map fun (r, i) => r.events i, ?_, ?_, s.run.events_eq⟩
  · rw [List.length_map, List.length_zipIdx]
  · intro j r hr
    have hblock := r.isBlock_events (hsteps r (List.mem_of_getElem? hr)) (j + 1)
    refine ⟨_, ?_, hblock⟩
    rw [List.getElem?_map, List.getElem?_zipIdx, hr, Nat.add_comm]
    rfl

/--
At the level debug, the records of a solve are a trace of its measures: one block of debug records for
each start that was iterated from, then a warning if sampling was given up, then one record for the result
or the error. The failed attempts among them have consecutive numbers; their kinds are the failures of the
measures, but for the sampling that was given up; and their iterations, with the steps of the attempt that
succeeded, are those of the measures. Before them there is the start of a logger exactly where the solve
installs one, and nothing else. A solve whose configuration is refused makes no record, at any level.
-/
theorem solve_trace (s : Solver μ) (log : Logging) :
    (∀ e, s.config.validate = .error e →
      s.solve log = ⟨.error e, s, log, none⟩ ∧ s.tell log = some (s.solve log, [])) ∧
    (s.config.validate = .ok () → (s.solve log).logging.maximum = .upTo .debug →
      ∃ run m started records, (s.solve log).run = some run ∧
      (s.solve log).solver.measures = some m ∧
      s.tell log = some (s.solve log, started ++ records) ∧
      started = (if log.logger.isNone ∧ (s.config.logLevel.bind Level.named?).isSome then
        [.loggerStarted (.upTo .debug)] else []) ∧
      (startLogging s.config log).2.records.toList = log.records.toList ++ started ∧
      (s.solve log).logging = (startLogging s.config log).2.recordAll records ∧
      (∃ blocks : List (List Event), blocks.length = run.rounds.length ∧
        (∀ j (r : Round), run.rounds[j]? = some r →
          ∃ block, blocks[j]? = some block ∧ r.IsBlock (j + 1) block) ∧
        records = blocks.flatten ++
          (if run.givenUp.isSome then [.samplingGivenUp m.rejectedStarts] else []) ++
          [match (s.solve log).result with
            | .ok q => .solved q m.attempts m.totalIterations
            | .error e => .unsolved e]) ∧
      (∃ n, records.map (·.severity) = List.replicate n .debug ++
        (if run.givenUp.isSome then [.warn] else []) ++
        [if (s.solve log).result.isOk then .info else .error]) ∧
      ∃ (failed : List Round) (last : Option Round), run.rounds = failed ++ last.toList ∧
        (∀ r ∈ failed, r.HasFailed) ∧
        (last = none → ∃ e, (s.solve log).result = .error e) ∧
        (∀ r ∈ last, ∃ q x, r.outcome = .converged q x ∧ (s.solve log).result = .ok q) ∧
        (records.filterMap Event.failure?).map (·.1) = List.range' 1 failed.length ∧
        (∀ kind, ((records.filterMap Event.failure?).map (·.2.1)).count kind +
          (if run.givenUp.isSome ∧ kind = .constraintViolated then 1 else 0) =
            m.failures.count kind) ∧
        ((records.filterMap Event.failure?).map (·.2.2)).sum + last.elim 0 (·.steps) =
          m.totalIterations) := by
  refine ⟨fun e h => ⟨solve_of_refused h log, ?_⟩, fun h hd => ?_⟩
  · rw [tell_eq, made_of_refused h]
  have hc := Config.validate_iff.mp h
  have htell := s.tell_eq log
  rw [made, traced_of_debug hc hd] at htell
  have hkept := records_startLogging s.config log
  rw [← Call.accepted?_of_isValid hc] at hkept
  refine ⟨s.run, s.run.measures, s.startRecords log, s.run.events, ?_, ?_, htell,
    startRecords_of_debug hc hd, hkept, ?_, ?_, ?_, ?_⟩
  · rw [solve_of_isValid hc]
  · rw [solve_of_isValid hc]
    rfl
  · rw [solve_of_isValid hc]
  · rw [solve_of_isValid hc]
    exact s.exists_blocks
  · rw [solve_of_isValid hc]
    exact s.run.map_severity_events
  · obtain ⟨failed, last, hrounds, hfailed, hnone, hlast⟩ :=
      s.isRun.exists_failed (List.forall_mem_nil _)
    obtain ⟨hnumbers, hkinds, hiterations⟩ := Told.of_failed hfailed
    have hconverged : ∀ r ∈ last, ∃ q x, r.outcome = .converged q x := by
      intro r hr
      obtain ⟨q, x, ho, -⟩ := hlast r hr
      exact ⟨q, x, ho⟩
    obtain ⟨htold, hfailures, htotal⟩ := told_append failed hconverged
    obtain ⟨x, hm⟩ := s.isRun.exists_measures_eq rfl
    rw [solve_of_isValid hc, s.run.filterMap_events, hrounds, htold, hm]
    refine ⟨failed, last, rfl, hfailed, hnone, hlast, hnumbers, ?_, ?_⟩
    · intro kind
      rw [hkinds, s.run.count_ledger, hrounds, hfailures]
    · rw [hiterations, s.run.totalIterations_ledger, hrounds, htotal]

/-- At the level debug, the records of the crossing end with its solution. -/
theorem crossing_trace :
    once.validate = .ok () ∧
    ((crossing once).solve { maximum := .upTo .debug }).logging.maximum = .upTo .debug ∧
    ∃ m records, ((crossing once).solve { maximum := .upTo .debug }).solver.measures = some m ∧
      (crossing once).tell { maximum := .upTo .debug } =
        some ((crossing once).solve { maximum := .upTo .debug }, records) ∧
      records.getLast? = some (.solved ⟨2.0, 1.0⟩ m.attempts m.totalIterations) := by
  have hc := Config.validate_iff.mpr isValid_once
  have hq := result_of_run isValid_once crossing_once { maximum := .upTo .debug }
  have hd : ((crossing once).solve { maximum := .upTo .debug }).logging.maximum =
      .upTo .debug := by
    rw [maximum_solve, Call.accepted?_of_isValid isValid_once]
    rfl
  obtain ⟨-, htrace⟩ := solve_trace (crossing once) { maximum := .upTo .debug }
  obtain ⟨run, m, started, records, -, hm, htell, -, -, -, ⟨blocks, -, -, hrecords⟩, -⟩ :=
    htrace hc hd
  refine ⟨hc, hd, m, started ++ records, hm, htell, ?_⟩
  rw [hrecords, ← List.append_assoc, List.getLast?_concat, hq]

/--
There can be other records than those of the run, or none. Where the crossing installs the logger at debug,
the start of that is recorded before the records of its only round; and where its configuration is refused,
the error is not recorded.
-/
theorem crossing_trace_started :
    (∃ x records, (crossing { once with logLevel := some "debug" }).tell {} = some (x, records) ∧
      x.logging.maximum = .upTo .debug ∧
      records.head? = some (.loggerStarted (.upTo .debug)) ∧
      ∀ n warned last, records.map (·.severity) ≠
        List.replicate n .debug ++ (if warned = true then [.warn] else []) ++ [last]) ∧
    ∃ x e, (crossing meagre).tell { maximum := .upTo .debug } = some (x, []) ∧
      x.logging.maximum = .upTo .debug ∧ x.result = .error e := by
  have hmax : ((crossing { once with logLevel := some "debug" }).solve {}).logging.maximum =
      .upTo .debug := maximum_of_asked Logging.accepted?_chatty {}
  have hlog : ({} : Logging).logger = none := rfl
  have hmade := made_of_installs hlog Logging.accepted?_chatty rfl
  rw [traced_of_debug Logging.isValid_chatty hmax] at hmade
  have hrun : (crossing { once with logLevel := some "debug" }).run.events.map (·.severity) =
      [.debug, .info] := by
    decide +kernel
  obtain ⟨e, he⟩ : ∃ e, (crossing meagre).config.validate = .error e :=
    exists_error_meagre none
  have hsilent := tell_eq (crossing meagre) { maximum := .upTo .debug }
  rw [made_of_refused he] at hsilent
  refine ⟨⟨_, _, tell_eq _ _, hmax, by rw [hmade]; rfl, ?_⟩, _, e, hsilent, ?_, ?_⟩
  · intro n warned last h
    rw [hmade, List.map_cons, hrun] at h
    cases n with
    | zero => cases warned <;> cases h
    | succ n => cases h
  · rw [solve_of_refused he]
  · rw [solve_of_refused he]

end Solver

end PlanarNewton
