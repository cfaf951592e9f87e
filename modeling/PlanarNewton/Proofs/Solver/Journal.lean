import PlanarNewton.Proofs.Log.Calls

/-!
# The records of a solve

`Run.events` tells a run afterwards, from what it has kept. The same records can be cut up by the moment at
which they are made: those of a draw, of an attempt and of the rounds so far (`Draw.events`, `Attempt.events`,
`Progress.events`). A journal is the logging of a process together with the records that were made so far,
whether or not a logger has kept them (`Journal`).

The records of a solve (`Solver.made`) begin with the start of the logger that it installs, if it installs
one. What follows is what the maximum level lets through of the records of its run.
-/

namespace PlanarNewton

variable {μ : Type}

namespace Round

/-- The records of a round: those of its steps, and of its failure if it failed. -/
lemma events_eq (r : Round) (number : ℕ) :
    r.events number = ((r.visits.take r.steps).zipIdx 1).map
        (fun (v, i) => .iteration i v.point v.evaluation.objective) ++
      match r.outcome with
      | .converged .. => []
      | .failed failure => [.attemptFailed number r.start failure (max r.steps 1)] :=
  rfl

/-- The records of a round are all of severity debug. -/
lemma severity_events {r : Round} {number : ℕ} {e : Event} (h : e ∈ r.events number) :
    e.severity = .debug := by
  rw [events_eq, List.mem_append] at h
  obtain h | h := h
  · obtain ⟨_, -, rfl⟩ := List.mem_map.mp h
    rfl
  · cases ho : r.outcome with
    | converged =>
      rw [ho] at h
      cases h
    | failed =>
      rw [ho] at h
      obtain rfl := List.mem_singleton.mp h
      rfl

end Round

namespace Run

/-- The records of a run: those of its rounds, a warning if sampling was given up, and the last one. -/
lemma events_eq (run : Run μ) :
    run.events = ((run.rounds.zipIdx 1).map fun (r, i) => r.events i).flatten ++
      (if run.givenUp.isSome then [.samplingGivenUp run.measures.rejectedStarts] else []) ++
      [run.lastEvent] := by
  rw [events, List.flatMap_def]

end Run

/-- The records of a draw whose first refusals are in the measures: one if it is given up. -/
def Draw.events (d : Draw) (m : Measures) : List Event :=
  match d.start with
  | none => [.samplingGivenUp (m.rejectedStarts + d.refused.length)]
  | some _ => []

/-- The records of the steps of an attempt, after so many steps before. -/
def Attempt.events (a : Attempt μ) (steps : ℕ) : List Event :=
  ((a.visits.take a.steps).zipIdx (steps + 1)).map fun (v, i) =>
    .iteration i v.point v.evaluation.objective

/-- The records of the rounds made so far. -/
def Progress.events (p : Progress μ) : List Event :=
  (p.rounds.reverse.zipIdx 1).flatMap fun (r, i) => r.events i

/-- One more round adds its records. -/
lemma Progress.events_after (p : Progress μ) (d : Draw) (start : Vec2 Float) (a : Attempt μ) :
    (p.after d start a).events =
      p.events ++ (d.round start a).events (p.rounds.length + 1) := by
  rw [events, after, List.reverse_cons, List.zipIdx_append, List.flatMap_append,
    List.length_reverse, Nat.add_comm 1]
  exact congrArg _ (List.flatMap_singleton ..)

/-- Logging, with the records that were made so far, whether or not a logger has kept them. -/
structure Journal where
  logging : Logging
  made : List Event := []

namespace Journal

/-- Makes a record, and lists it as made, if the maximum level lets it through. -/
def write (j : Journal) (e : Event) : Journal :=
  if j.logging.maximum.allows e.severity then ⟨j.logging.record e, j.made ++ [e]⟩ else j

/-- Written into a journal, records are made in order as far as the maximum level lets them through. -/
lemma foldl_write (j : Journal) (events : List Event) :
    events.foldl write j = ⟨j.logging.recordAll events,
      j.made ++ events.filter (j.logging.maximum.allows ·.severity)⟩ := by
  induction events generalizing j with
  | nil =>
    rw [List.filter_nil, List.append_nil]
    rfl
  | cons e events ih =>
    rw [List.foldl_cons, ih]
    cases he : j.logging.maximum.allows e.severity with
    | false =>
      have hw : j.write e = j := by simp [write, he]
      have hr : j.logging.record e = j.logging := by simp [Logging.record, he]
      rw [hw, List.filter_cons_of_neg (by simp [he]), Logging.recordAll, Logging.recordAll,
        List.foldl_cons, hr]
    | true =>
      have hw : j.write e = ⟨j.logging.record e, j.made ++ [e]⟩ := by simp [write, he]
      have hf : (e :: events).filter (j.logging.maximum.allows ·.severity) =
          e :: events.filter (j.logging.maximum.allows ·.severity) := List.filter_cons_of_pos he
      rw [hw, hf]
      simp only [Logging.maximum_record, List.append_assoc]
      rfl

end Journal

/-- The records of the run of a solve that the maximum level lets through. -/
def Solved.traced (r : Solved μ) : List Event :=
  (r.run.elim [] (·.events)).filter (r.logging.maximum.allows ·.severity)

/-- The level debug lets all records through. -/
lemma Solved.traced_of_debug {r : Solved μ} (h : r.logging.maximum = .upTo .debug) :
    r.traced = r.run.elim [] (·.events) := by
  rw [traced, h]
  refine List.filter_eq_self.mpr fun e _ => ?_
  cases e.severity <;> rfl

/-- The level off lets no record through. -/
lemma Solved.traced_of_off {r : Solved μ} (h : r.logging.maximum = .off) : r.traced = [] := by
  rw [traced, h]
  exact List.filter_eq_nil_iff.mpr fun _ _ => Bool.false_ne_true

namespace Solver

/-- The records that a solve makes before its run: the start of a logger that it installs. -/
def startRecords (s : Solver μ) (log : Logging) : List Event :=
  log.startRecords (Call.solve s).accepted?

/-- The records made in a solve: first the start of a logger that it installs, then those of its run. -/
def made (s : Solver μ) (log : Logging) : List Event :=
  s.startRecords log ++ (s.solve log).traced

/-- The maximum level after a solve is the one that it asked for, if this was accepted. -/
lemma maximum_solve (s : Solver μ) (log : Logging) : (s.solve log).logging.maximum =
    (Call.solve s).accepted?.elim log.maximum .upTo :=
  log.maximum_apply (.solve s)

/-- The level that is asked for and accepted is in force at once. -/
lemma maximum_of_asked {s : Solver μ} {severity : Severity}
    (h : (Call.solve s).accepted? = some severity) (log : Logging) :
    (s.solve log).logging.maximum = .upTo severity := by
  rw [maximum_solve, h, Option.elim_some]

/-- A solve that installs a logger makes a record of its start first, if the level lets that through. -/
lemma made_of_installs {s : Solver μ} {log : Logging} (hlog : log.logger = none) {severity : Severity}
    (hasked : (Call.solve s).accepted? = some severity)
    (h : (Level.upTo severity).allows .info = true) :
    s.made log = .loggerStarted (.upTo severity) :: (s.solve log).traced := by
  rw [made, startRecords, Logging.startRecords, hlog, hasked, Option.elim_some, if_pos h]
  rfl

/-- A solve that is refused makes no record. -/
lemma made_of_refused {s : Solver μ} {e : Error} (h : s.config.validate = .error e) (log : Logging) :
    s.made log = [] := by
  rw [made, startRecords, Call.accepted?_of_refused h, solve_of_refused h, Logging.startRecords]
  cases log.logger <;> rfl

end Solver

end PlanarNewton
