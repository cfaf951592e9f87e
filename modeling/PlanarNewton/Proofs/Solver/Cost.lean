import PlanarNewton.Proofs.Solver.Ledger
import PlanarNewton.Proofs.Solver.Stream

/-!
# What a solve costs

With a valid configuration a solve ends, and its measures tell what it cost (`Solver.solve_cost`). The
points drawn stay below two for each iteration of the total budget. The evaluations of the system are
the iterations charged, and those that no iteration was charged for: an attempt evaluates the system
once for each step, and once more if it ended with a look at a point and not with a step
(`IsAttempt.counts`). That look is the solution, or the end of an exhausted attempt, or a value that is
not finite; only in the last case the charge may cover it, if there was no step before. `Cost` adds this
up over the rounds of a run.
-/

namespace PlanarNewton

variable {μ : Type}

/-- How many evaluations an attempt made for its steps. -/
inductive Attempt.Counts (a : Attempt μ) : Prop where
  /-- It ended when it looked at a point. -/
  | looked (hl : a.visits.length = a.steps + 1)
    (ho : ∀ failure, a.outcome = .failed failure → failure = .nonFinite ∨ failure = .exhausted)
  /-- It ended with a step that led nowhere. -/
  | stepped {failure} (hl : a.visits.length = a.steps) (hs : 0 < a.steps)
    (ho : a.outcome = .failed failure) (hx : failure ≠ .exhausted)

/-- The evaluations made for some measures, of which so many were made at a solution. -/
structure Cost (m : Measures) (found evaluations : ℕ) : Prop where
  le_evaluations : m.totalIterations + found + m.failures.exhausted ≤ evaluations
  evaluations_le :
    evaluations ≤ m.totalIterations + found + m.failures.exhausted + m.failures.nonFinite

namespace Equations

variable {s : Equations Float μ} {accuracy : Float}

/-- An attempt evaluates the system once for each step, and once more if it ended with a look. -/
theorem IsAttempt.counts {left p m a} (h : IsAttempt s accuracy left p m a) : a.Counts := by
  induction h with
  | nonFinite =>
    refine .looked rfl fun failure hf => ?_
    cases hf
    exact .inl rfl
  | converged => exact .looked rfl nofun
  | exhausted =>
    refine .looked rfl fun failure hf => ?_
    cases hf
    exact .inr rfl
  | stuck _ _ ha =>
    refine .stepped rfl Nat.one_pos rfl ?_
    rintro rfl
    exact advance_ne_exhausted _ ha
  | step _ _ _ _ ih =>
    cases ih with
    | looked hl ho => exact .looked (congrArg Nat.succ hl) ho
    | stepped hl _ ho hx => exact .stepped (congrArg Nat.succ hl) (Nat.succ_pos _) ho hx

/-- An attempt that converges looks at one point more than it makes steps. -/
lemma IsAttempt.length_visits_of_converged {left p m a q r} (h : IsAttempt s accuracy left p m a)
    (ho : a.outcome = .converged q r) : a.visits.length = a.steps + 1 := by
  cases h.counts with
  | looked hl => exact hl
  | stepped _ _ hf =>
    rw [ho] at hf
    cases hf

variable {c : Config} {p : Progress μ} {d : Draw} {start : Vec2 Float} {a : Attempt μ}
  {failure : Failure}

/-- A failed round makes an evaluation for each iteration charged, and at most one more. -/
lemma IsRound.length_visits_of_failed (h : s.IsRound c p d start a) (hc : c.IsValid)
    (ho : a.outcome = .failed failure) :
    max a.steps 1 + (if failure = .exhausted then 1 else 0) ≤ a.visits.length ∧
    a.visits.length ≤ max a.steps 1 + (if failure = .exhausted then 1 else 0) +
      (if failure = .nonFinite then 1 else 0) := by
  cases h.attempt.counts with
  | looked hl hf =>
    obtain rfl | rfl := hf failure ho
    · rw [if_neg (by decide), if_pos rfl]
      omega
    · -- An attempt is allowed a step, and an exhausted one took it.
      have hs := h.attempt.steps_of_exhausted ho
      have hpos := h.allowance_pos hc
      rw [if_pos rfl, if_neg (by decide)]
      omega
  | stepped hl hs hf hx =>
    rw [ho] at hf
    cases hf
    rw [if_neg hx]
    omega

end Equations

/-- A round adds the visits of its attempt. -/
lemma Progress.length_visits_after (p : Progress μ) (d : Draw) (start : Vec2 Float)
    (a : Attempt μ) : (p.after d start a).visits.length = p.visits.length + a.visits.length := by
  rw [p.visits_after, List.length_append]

/-- A failed round counts its failure. -/
lemma Progress.count_failures_after {p : Progress μ} {d : Draw} {start : Vec2 Float} {a : Attempt μ}
    {failure : Failure} (ho : a.outcome = .failed failure) (kind : Failure) :
    (p.after d start a).measures.failures.count kind =
      p.measures.failures.count kind + (if failure = kind then 1 else 0) := by
  rw [failures_after ho]
  exact p.measures.failures.count_record failure kind

namespace Cost

open Equations

variable {s : Equations Float μ} {c : Config} {p : Progress μ} {d : Draw} {start : Vec2 Float}
  {a : Attempt μ}

/-- At the beginning, nothing was drawn and nothing evaluated. -/
lemma zero : Cost {} 0 0 :=
  ⟨le_rfl, le_rfl⟩

/-- A failed round leaves as many evaluations as its measures tell. -/
theorem after (hp : Cost p.measures 0 p.visits.length) (hc : c.IsValid) {failure : Failure}
    (h : s.IsRound c p d start a) (ho : a.outcome = .failed failure) :
    Cost (p.after d start a).measures 0 (p.after d start a).visits.length := by
  obtain ⟨hle, hge⟩ := hp
  obtain ⟨hlow, hhigh⟩ := h.length_visits_of_failed hc ho
  have hx : (p.after d start a).measures.failures.exhausted =
      p.measures.failures.exhausted + (if failure = .exhausted then 1 else 0) :=
    Progress.count_failures_after ho .exhausted
  have hn : (p.after d start a).measures.failures.nonFinite =
      p.measures.failures.nonFinite + (if failure = .nonFinite then 1 else 0) :=
    Progress.count_failures_after ho .nonFinite
  constructor
  · rw [Progress.totalIterations_after ho, hx, Progress.length_visits_after]
    omega
  · rw [Progress.totalIterations_after ho, hx, hn, Progress.length_visits_after]
    omega

/-- At a solution, one evaluation is made that no iteration is charged for. -/
lemma solved (hp : Cost p.measures 0 p.visits.length) {q : Vec2 Float} {r : Float}
    (h : s.IsRound c p d start a) (ho : a.outcome = .converged q r) :
    Cost (p.after d start a).measures 1 (p.after d start a).visits.length := by
  obtain ⟨hle, hge⟩ := hp
  have hl := h.attempt.length_visits_of_converged ho
  constructor
  · rw [Progress.totalIterations_after_of_converged ho, Progress.failures_after_of_converged ho,
      Progress.length_visits_after]
    omega
  · rw [Progress.totalIterations_after_of_converged ho, Progress.failures_after_of_converged ho,
      Progress.length_visits_after]
    omega

end Cost

/-- The measures of a run tell its evaluations. -/
theorem Equations.IsRun.cost {s : Equations Float μ} {c : Config} {p : Progress μ} {run : Run μ}
    (h : s.IsRun c p run) (hc : c.IsValid) (hp : Cost p.measures 0 p.visits.length) :
    Cost run.measures (if run.result.isOk then 1 else 0) run.visits.length := by
  induction h with
  | spent => exact hp
  | givenUp => exact ⟨hp.le_evaluations, hp.evaluations_le⟩
  | solved h ho =>
    have hcost := hp.solved h ho
    exact ⟨hcost.le_evaluations, hcost.evaluations_le⟩
  | again h ho _ ih => exact ih (hp.after hc h ho)

namespace Solver

/-- A run draws fewer points than two for each iteration of its budget. -/
lemma length_candidates_run_lt (s : Solver μ) (hc : s.config.IsValid) :
    s.run.candidates.length < 2 * s.config.iterationsTotal.toNat := by
  have hs := s.isRun.settled hc (.start hc)
  have hle := hs.attempts_le
  have hpos := hs.attempts_pos
  rw [s.length_candidates_run]
  cases hg : s.run.givenUp with
  | none =>
    have hr := hs.rejected_lt hg
    omega
  | some refused =>
    -- The attempt that was made up for the give-up drew no start.
    have hr := hs.rejected_le
    rw [Option.isSome_some, if_pos rfl]
    omega

/--
A solve with a valid configuration ends: its run has a derivation, in which no loop is cut short. It
draws fewer points than two for each iteration of the total budget. The system is evaluated once for
each iteration charged, for the solution and for each exhausted attempt, and besides at most once for
each attempt that met a value that is not finite; so never more often than there are iterations and
attempts in the measures.
-/
theorem solve_cost (s : Solver μ) (log : Logging) (h : s.config.validate = .ok ()) :
    ∃ run m, (s.solve log).run = some run ∧ (s.solve log).result = run.result ∧
      (s.solve log).solver.measures = some m ∧
      s.system.IsRun s.config { generator := s.generator, memory := s.memory } run ∧
      (s.solve log).solver.generator = s.generator.skip run.candidates.length ∧
      run.candidates.length ≤ 2 * s.config.iterationsTotal.toNat - 1 ∧
      s.system.replay (run.visits.map (·.point)) s.memory =
        (run.visits, (s.solve log).solver.memory) ∧
      m.totalIterations + (if (s.solve log).result.isOk then 1 else 0) + m.failures.exhausted ≤
        run.visits.length ∧
      run.visits.length ≤ m.totalIterations + (if (s.solve log).result.isOk then 1 else 0) +
        m.failures.exhausted + m.failures.nonFinite ∧
      run.visits.length ≤ m.totalIterations + m.attempts := by
  have hc := Config.validate_iff.mp h
  have hcost := s.isRun.cost hc .zero
  have hdrawn := s.length_candidates_run_lt hc
  have hbalance := (s.isRun.settled hc (.start hc)).balance
  have hyields := (s.samples_solve log).yields
  rw [solve_of_isValid hc] at hyields ⊢
  refine ⟨s.run, s.run.measures, rfl, rfl, rfl, s.isRun, ?_, Nat.le_sub_one_of_lt hdrawn,
    s.replay_run, hcost.le_evaluations, hcost.evaluations_le, ?_⟩
  · have hg := hyields.generator_eq
    rw [← hyields.length] at hg
    exact hg
  · -- The evaluations beyond the iterations belong to different attempts.
    have hle := hcost.evaluations_le
    rw [FailureCounts.total] at hbalance
    omega

/-- Outside the half plane, three iterations draw five points at most. -/
theorem crossing_cost :
    ∃ run m, ((crossing outside).solve {}).run = some run ∧
      ((crossing outside).solve {}).solver.measures = some m ∧ run.candidates.length ≤ 5 ∧
      run.visits.length ≤ m.totalIterations + m.attempts := by
  obtain ⟨run, m, hr, -, hm, -, -, hd, -, -, -, hv⟩ :=
    solve_cost (crossing outside) {} (Config.validate_iff.mpr isValid_outside)
  exact ⟨run, m, hr, hm, hd, hv⟩

end Solver

end PlanarNewton
