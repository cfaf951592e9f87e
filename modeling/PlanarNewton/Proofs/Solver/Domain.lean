import PlanarNewton.Proofs.Solver.Session

/-!
# Newton steps in the admissible domain

A system is evaluated at no other points than those that are finite and that all constraints accept
(`Equations.Admits`), and between two evaluations of an attempt lies one Newton step (`Visit.Leads`).
A point comes from a draw or from a step, and each of the two looks at its point before the system is
evaluated there. So an attempt that begins in the domain stays there (`IsAttempt.admits`), each round
begins in it (`IsRound.isPath`), and with the rounds all solves of a session do so
(`Session.evaluations`).
-/

namespace PlanarNewton

variable {μ : Type}

/-- From an evaluation that was not yet good enough, the Newton step led to the next one. -/
structure Visit.Leads (accuracy : Float) (v w : Visit) : Prop where
  isOpen : v.evaluation.IsOpen accuracy
  newton : ∃ step, v.evaluation.jacobian.solve (-v.evaluation.objective) = some step ∧
    w.point = v.point + step

namespace Equations

variable {s : Equations Float μ} {accuracy : Float}

/-- A point of the domain that objectives may rely on. -/
structure Admits (s : Equations Float μ) (p : Vec2 Float) : Prop where
  isFinite : p.isFinite = true
  accepts : ∀ c ∈ s.constraints, c p = true

/-- The visits of a round are a path of Newton steps in the domain, from the start that was drawn. -/
structure IsPath (s : Equations Float μ) (accuracy : Float) (r : Round) : Prop where
  begins : r.visits.head?.map (·.point) = some r.start
  admits : ∀ v ∈ r.visits, s.Admits v.point
  isChain : r.visits.IsChain (Visit.Leads accuracy)

/-- A step does not leave the domain. -/
lemma admits_of_advance {v : Visit} {next : Vec2 Float} (h : s.advance v = .ok next) :
    s.Admits next := by
  obtain ⟨_, -, -, hf, hc⟩ := advance_ok h
  exact ⟨hf, List.all_eq_true.mp hc⟩

namespace IsAttempt

/-- An attempt that begins in the domain stays there. -/
theorem admits {left p m a} (h : IsAttempt s accuracy left p m a) (hp : s.Admits p) :
    ∀ v ∈ a.visits, s.Admits v.point := by
  induction h with
  | nonFinite | converged | exhausted | stuck => exact List.forall_mem_singleton.mpr hp
  | step _ _ ha _ ih => exact List.forall_mem_cons.mpr ⟨hp, ih (admits_of_advance ha)⟩

/-- An attempt moves by Newton steps. -/
theorem isChain {left p m a} (h : IsAttempt s accuracy left p m a) :
    a.visits.IsChain (Visit.Leads accuracy) := by
  induction h with
  | nonFinite | converged | exhausted | stuck => exact List.isChain_singleton _
  | @step left p m e m' next a he ho ha h ih =>
    obtain ⟨step, hs, hn, -⟩ := advance_ok ha
    -- The rest of the attempt begins where the step led.
    have hlead : ∀ w ∈ a.visits.head?, Visit.Leads accuracy ⟨p, e⟩ w := by
      intro w hw
      have hw' := h.head?_visits
      rw [Option.mem_def.mp hw] at hw'
      exact ⟨ho, step, hs, (Option.some.inj hw').trans hn⟩
    exact List.isChain_cons.mpr ⟨hlead, ih⟩

end IsAttempt

/-- The start of a round lies in the domain, and so does the rest of it. -/
lemma IsRound.isPath {c : Config} {p : Progress μ} {d : Draw} {start : Vec2 Float} {a : Attempt μ}
    (h : s.IsRound c p d start a) (hr : Config.checkSearchRange c.lower c.upper = .ok ()) :
    s.IsPath c.accuracy (d.round start a) := by
  have hf := h.draw.start_isFinite hr h.found
  obtain ⟨hc, -⟩ := h.draw.start_spec h.found
  have hstart : s.Admits start := ⟨hf, List.all_eq_true.mp hc⟩
  exact ⟨h.attempt.head?_visits, h.attempt.admits hstart, h.attempt.isChain⟩

end Equations

namespace Solved

/-- The evaluations of a solve are those of its rounds. -/
lemma visits_eq (r : Solved μ) : r.visits = r.rounds.flatMap (·.visits) := by
  unfold visits rounds
  cases r.run <;> rfl

/-- The start of each round was drawn. -/
lemma start_mem_candidates {r : Solved μ} {round : Round} (h : round ∈ r.rounds) :
    round.start ∈ r.candidates := by
  obtain ⟨result, solver, logging, run⟩ := r
  cases run with
  | none => cases h
  | some run =>
    apply List.mem_append_left
    exact List.mem_flatMap.mpr ⟨round, h, List.mem_append_right _ List.mem_cons_self⟩

end Solved

/-- All rounds of a solve are paths of Newton steps in the domain. -/
lemma Solver.isPath_solve (s : Solver μ) (log : Logging) :
    ∀ round ∈ (s.solve log).rounds, s.system.IsPath s.config.accuracy round := by
  obtain ⟨e, -, h⟩ | ⟨hc, h⟩ := s.solve_cases log
  · rw [h]
    exact List.forall_mem_nil _
  · rw [h]
    exact s.isRun.forall_rounds (·.isPath hc.range) (List.forall_mem_nil _)

namespace Session

variable {s t : Solver μ} {log log' : Logging} {settings : List Setting} {solves : List (Solved μ)}

/-- All rounds of a session are paths of Newton steps in the domain. -/
lemma isPath (h : Session s log settings solves t log') :
    ∀ r ∈ solves, ∀ round ∈ r.rounds, s.system.IsPath r.solver.config.accuracy round := by
  refine h.forall_solves ?_
  intro u log hu
  rw [u.config_solve log, ← hu]
  exact u.isPath_solve log

/--
Whatever settings are made and however often it is solved, a system is only evaluated at points that
are finite and that all of its constraints accept. The first evaluation of an attempt is at a start
that was drawn, and each further one is at the point before it plus the Newton step from there, where
the objective was finite and its length not below the accuracy.
-/
theorem evaluations (h : Session s log settings solves t log') :
    s.system.replay ((solves.flatMap (·.visits)).map (·.point)) s.memory =
      (solves.flatMap (·.visits), t.memory) ∧
    (∀ v ∈ solves.flatMap (·.visits), v.point.isFinite = true ∧
      ∀ c ∈ s.system.constraints, c v.point = true) ∧
    ∀ r ∈ solves, r.visits = r.rounds.flatMap (·.visits) ∧ ∀ round ∈ r.rounds,
      round.visits.head?.map (·.point) = some round.start ∧ round.start ∈ r.candidates ∧
      round.visits.IsChain (Visit.Leads r.solver.config.accuracy) := by
  refine ⟨h.replay, ?_, ?_⟩
  · intro v hv
    obtain ⟨r, hr, hv⟩ := List.mem_flatMap.mp hv
    rw [r.visits_eq] at hv
    obtain ⟨round, hround, hv⟩ := List.mem_flatMap.mp hv
    have hadmits := (h.isPath r hr round hround).admits v hv
    exact ⟨hadmits.isFinite, hadmits.accepts⟩
  · intro r hr
    refine ⟨r.visits_eq, ?_⟩
    intro round hround
    have hpath := h.isPath r hr round hround
    exact ⟨hpath.begins, Solved.start_mem_candidates hround, hpath.isChain⟩

/-- All points at which the crossing is evaluated lie in its half plane. -/
theorem crossing_evaluations :
    ∃ solves t log, Session (Solver.crossing Solver.once) {} [.iterationsTotal 2] solves t log ∧
      solves.length = 2 ∧ (∃ r ∈ solves, r.result = .ok ⟨2.0, 1.0⟩) ∧
      ∀ v ∈ solves.flatMap (·.visits), v.point.x > 0.0 := by
  obtain ⟨solves, t, log, h, hl, hq⟩ := exists_twice
  obtain ⟨-, hv, -⟩ := h.evaluations
  refine ⟨solves, t, log, h, hl, hq, ?_⟩
  intro v hm
  exact of_decide_eq_true ((hv v hm).2 _ (List.mem_singleton.mpr rfl))

end Session

end PlanarNewton
