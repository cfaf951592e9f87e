import PlanarNewton.Proofs.Solver.Run
import PlanarNewton.Proofs.Solver.Solve

/-!
# Soundness of solutions

What a solve answers as a solution is one (`Solver.solve_sound`): the last point that it evaluated the
system at is finite, accepted by every constraint, and the length of the objective there is below the
accuracy and reported as the residual. Admissibility is looked at where a point is made, by a draw or by
a step, and the residual where it is evaluated; `IsAttempt.sound` joins the two along an attempt, and
`IsRun.sound` carries the result to the end of a run.
-/

namespace PlanarNewton

variable {μ : Type}

namespace Equations.IsRun

variable {s : Equations Float μ} {c : Config}

/-- What a run answers is the solution of its last visit. -/
lemma sound {p : Progress μ} {run : Run μ} {q : Vec2 Float} (h : IsRun s c p run)
    (hr : Config.checkSearchRange c.lower c.upper = .ok ()) (hq : run.result = .ok q) :
    ∃ v, run.visits.getLast? = some v ∧ s.IsSolution c.accuracy v ∧ v.point = q ∧
      run.measures.residual = some v.evaluation.objective.norm := by
  induction h with
  | spent | givenUp => cases hq
  | @solved p d start a q' r h ho =>
    cases hq
    have hp := h.draw.start_isFinite hr h.found
    obtain ⟨v, hv, hs, he, hn⟩ := h.attempt.sound hp (h.draw.start_spec h.found).1 ho
    refine ⟨v, ?_, hs, he, congrArg some hn.symm⟩
    show (p.after d start a).visits.getLast? = some v
    rw [Progress.visits_after, List.getLast?_append, hv]
    rfl
  | again _ _ _ ih => exact ih hq

/-- A run without a solution reports no residual. -/
lemma residual_of_error {p : Progress μ} {run : Run μ} {e : Error} (h : IsRun s c p run)
    (hp : p.measures.residual = none) (he : run.result = .error e) :
    run.measures.residual = none := by
  induction h with
  | spent | givenUp => exact hp
  | solved => cases he
  | again _ _ _ ih => exact ih hp he

end Equations.IsRun

namespace Solver

/--
A returned point is finite and accepted by every constraint, the last evaluation was made there, and
its objective is finite and shorter than the accuracy; its length is the residual of the measures. A
solve that finds no solution leaves no residual.
-/
theorem solve_sound (s : Solver μ) (log : Logging) :
    (∀ p, (s.solve log).result = .ok p →
      p.isFinite = true ∧ (∀ c ∈ s.system.constraints, c p = true) ∧
      ∃ run v m, (s.solve log).run = some run ∧
        s.system.replay (run.visits.map (·.point)) s.memory = (run.visits, run.memory) ∧
        run.visits.getLast? = some v ∧ v.point = p ∧
        v.evaluation.objective.isFinite = true ∧
        v.evaluation.objective.norm < s.config.accuracy ∧
        (s.solve log).solver.measures = some m ∧
        m.residual = some v.evaluation.objective.norm ∧ m.converged = true) ∧
    (∀ attempts iterations,
      (s.solve log).result = .error (.noSolution attempts iterations) →
      ∃ m, (s.solve log).solver.measures = some m ∧ m.residual = none) := by
  constructor
  · intro p hp
    have hc := isValid_of_ok hp
    rw [solve_of_isValid hc] at hp ⊢
    obtain ⟨v, hv, hs, rfl, hr⟩ := s.isRun.sound hc.range hp
    -- Nothing was visited before the run, so what it adds are all its visits.
    obtain ⟨visits, he, hm⟩ := s.isRun.replay
    obtain rfl : _ = visits := he
    refine ⟨hs.point_isFinite, List.all_eq_true.mp hs.accepts, s.run, v, s.run.measures, rfl, hm,
      hv, rfl, hs.objective_isFinite, hs.norm_lt, rfl, hr, ?_⟩
    exact congrArg Option.isSome hr
  · intro attempts iterations he
    have hc := isValid_of_noSolution he
    rw [solve_of_isValid hc] at he ⊢
    exact ⟨_, rfl, s.isRun.residual_of_error rfl he⟩

/-- The crossing is a sound solution; outside the half plane there is no residual. -/
theorem crossing_sound :
    (∃ run v, ((crossing once).solve {}).run = some run ∧ run.visits.getLast? = some v ∧
      v.point = ⟨2.0, 1.0⟩ ∧ v.point.x > 0.0 ∧ v.evaluation.objective.norm < 1e-6) ∧
    ∃ m, ((crossing outside).solve {}).solver.measures = some m ∧ m.residual = none := by
  constructor
  · have hp := result_of_run isValid_once crossing_once {}
    obtain ⟨-, hc, run, v, -, hr, -, hv, he, -, hn, -⟩ := (solve_sound (crossing once) {}).1 _ hp
    refine ⟨run, v, hr, hv, he, ?_, hn⟩
    rw [he]
    exact of_decide_eq_true (hc _ (List.mem_singleton.mpr rfl))
  · obtain ⟨e, he⟩ := exists_error_of_run isValid_outside crossing_outside {}
    obtain rfl := error_of_isValid isValid_outside he
    exact (solve_sound (crossing outside) {}).2 _ _ he

end Solver

end PlanarNewton
