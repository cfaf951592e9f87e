import PlanarNewton.Proofs.Solver.Solve

/-!
# Looser accuracies

A run that found its solution also finds one with a looser accuracy, and it costs no more
(`Solver.solve_relax`). The two runs are the same up to the first point that only the looser accuracy
accepts: there an attempt converges that went on before (`IsAttempt.relax`), perhaps one that failed in
the end, and the looser run is over (`IsRun.relax`). What it drew and visited is a beginning of what the
other run did, and since counters only grow (`Progress.LeadsTo`), none of them is above its own there.
-/

namespace PlanarNewton
open Binary64

variable {μ : Type}

namespace Measures

/-- No counter is above that of the second measures. -/
structure Within (m m' : Measures) : Prop where
  attempts : m.attempts ≤ m'.attempts
  totalIterations : m.totalIterations ≤ m'.totalIterations
  rejectedStarts : m.rejectedStarts ≤ m'.rejectedStarts
  failures : ∀ kind, m.failures.count kind ≤ m'.failures.count kind

namespace Within

/-- Measures are within themselves. -/
lemma refl (m : Measures) : m.Within m :=
  ⟨le_rfl, le_rfl, le_rfl, fun _ => le_rfl⟩

/-- Measures within measures are within those beyond. -/
lemma trans {m m' m'' : Measures} (h : m.Within m') (h' : m'.Within m'') : m.Within m'' where
  attempts := h.attempts.trans h'.attempts
  totalIterations := h.totalIterations.trans h'.totalIterations
  rejectedStarts := h.rejectedStarts.trans h'.rejectedStarts
  failures kind := (h.failures kind).trans (h'.failures kind)

end Within

/-- The entry of a round raises counters. -/
lemma within_enter (m : Measures) (r : Round) : m.Within (m.enter r) where
  attempts := Nat.le_succ _
  totalIterations := Nat.le_add_right _ _
  rejectedStarts := Nat.le_add_right _ _
  failures kind := by
    show _ ≤ (r.outcome.failure?.elim m.failures m.failures.record).count kind
    cases r.outcome.failure? with
    | none => exact le_rfl
    | some failure =>
      rw [Option.elim_some, FailureCounts.count_record]
      exact Nat.le_add_right _ _

/-- A sampling that is given up only adds to the measures. -/
lemma within_giveUp (m : Measures) (n : ℕ) : m.Within (m.refuse n).recordGiveUp where
  attempts := Nat.le_succ _
  totalIterations := le_rfl
  rejectedStarts := Nat.le_add_right _ _
  failures kind := by
    show _ ≤ (m.failures.record .constraintViolated).count kind
    rw [FailureCounts.count_record]
    exact Nat.le_add_right _ _

/-- A round that converges costs no more than a longer one after the same draw. -/
lemma enter_within_enter (m : Measures) (r r' : Round) (hd : r'.refused = r.refused)
    (hs : r'.steps ≤ r.steps) (hf : r'.outcome.failure? = none) :
    (m.enter r').Within (m.enter r) where
  attempts := le_rfl
  totalIterations := by
    show m.totalIterations + charge r'.steps r'.outcome.failure? ≤
      m.totalIterations + charge r.steps r.outcome.failure?
    rw [hf]
    refine Nat.add_le_add_left (hs.trans ?_) _
    cases r.outcome.failure? with
    | none => exact le_rfl
    | some failure => exact le_max_left _ _
  rejectedStarts := by
    show m.rejectedStarts + r'.refused.length ≤ m.rejectedStarts + r.refused.length
    rw [hd]
  failures kind := by
    show (r'.outcome.failure?.elim m.failures m.failures.record).count kind ≤ _
    rw [hf]
    exact (m.within_enter r).failures kind

end Measures

/-- The attempt converges where another one, to a stricter accuracy, goes on. -/
structure Attempt.Shortens (a' a : Attempt μ) : Prop where
  converged : ∃ q r, a'.outcome = .converged q r
  visits : a'.visits <+: a.visits
  steps : a'.steps ≤ a.steps

/-- What a run has done so far is the beginning of all that it did. -/
structure Progress.LeadsTo (p : Progress μ) (run : Run μ) : Prop where
  measures : p.measures.Within run.measures
  rounds : p.rounds.reverse <+: run.rounds

/-- The run costs no more than another, and all it did was the beginning of that. -/
structure Run.Shortens (run' run : Run μ) : Prop where
  measures : run'.measures.Within run.measures
  candidates : run'.candidates <+: run.candidates
  visits : run'.visits <+: run.visits

/-- The configuration with another accuracy. -/
def Config.withAccuracy (c : Config) (accuracy : Float) : Config :=
  { c with accuracy }

/-- A looser accuracy is valid as long as it is finite. -/
lemma Config.IsValid.withAccuracy {c : Config} (h : c.IsValid) {accuracy : Float}
    (hf : accuracy.isFinite = true) (hle : c.accuracy ≤ accuracy) :
    (c.withAccuracy accuracy).IsValid where
  accuracy_isFinite := hf
  accuracy_pos h0 := h.accuracy_pos (float_le_trans hle h0)
  perTry_pos := h.perTry_pos
  perTry_le := h.perTry_le
  range := h.range
  level := h.level

namespace Equations

variable {s : Equations Float μ} {accuracy accuracy' : Float} {c : Config}

/-- To a looser accuracy, an attempt is the same or converges before. -/
theorem IsAttempt.relax (hle : accuracy ≤ accuracy') {left p m} {a : Attempt μ}
    (h : IsAttempt s accuracy left p m a) :
    IsAttempt s accuracy' left p m a ∨
      ∃ a', IsAttempt s accuracy' left p m a' ∧ a'.Shortens a := by
  induction h with
  | nonFinite he hf => exact .inl (.nonFinite he hf)
  | converged he hf hr => exact .inl (.converged he hf (float_lt_of_lt_of_le hr hle))
  | @exhausted p m e m' he ho =>
    by_cases hr : e.objective.norm < accuracy'
    · exact .inr ⟨_, .converged he ho.isFinite hr, ⟨_, _, rfl⟩, List.prefix_rfl, le_rfl⟩
    · exact .inl (.exhausted he ⟨ho.isFinite, hr⟩)
  | @stuck left p m e m' failure he ho ha =>
    by_cases hr : e.objective.norm < accuracy'
    · exact .inr ⟨_, .converged he ho.isFinite hr, ⟨_, _, rfl⟩, List.prefix_rfl, Nat.zero_le _⟩
    · exact .inl (.stuck he ⟨ho.isFinite, hr⟩ ha)
  | @step left p m e m' next a he ho ha h ih =>
    by_cases hr : e.objective.norm < accuracy'
    · exact .inr ⟨_, .converged he ho.isFinite hr, ⟨_, _, rfl⟩, List.prefix_append [_] a.visits,
        Nat.zero_le _⟩
    · -- Both go on, and what the looser one does after the step is known.
      obtain h' | ⟨a', h', hs⟩ := ih
      · exact .inl (.step he ⟨ho.isFinite, hr⟩ ha h')
      · refine .inr ⟨_, .step he ⟨ho.isFinite, hr⟩ ha h', hs.converged, ?_, ?_⟩
        · exact List.cons_prefix_cons.mpr ⟨rfl, hs.visits⟩
        · exact Nat.succ_le_succ hs.steps

variable {p : Progress μ} {d : Draw} {start : Vec2 Float} {a a' : Attempt μ} {run : Run μ}

/-- To a looser accuracy, the same start is drawn, and the attempt from it is the same or shorter. -/
lemma IsRound.relax (hle : c.accuracy ≤ accuracy') (h : s.IsRound c p d start a) :
    s.IsRound (c.withAccuracy accuracy') p d start a ∨
      ∃ a', s.IsRound (c.withAccuracy accuracy') p d start a' ∧ a'.Shortens a := by
  obtain ha | ⟨a', ha, hs⟩ := h.attempt.relax hle
  · exact .inl ⟨h.unspent, h.draw, h.found, ha⟩
  · exact .inr ⟨a', ⟨h.unspent, h.draw, h.found, ha⟩, hs⟩

end Equations

namespace Progress

variable (p : Progress μ) {run : Run μ}

/-- A run that ends without a solution continues its rounds. -/
lemma leadsTo_unsolved (givenUp : Option (List (Vec2 Float))) :
    p.LeadsTo (p.unsolved givenUp) :=
  ⟨.refl _, List.prefix_rfl⟩

/-- A run that ends with a solution continues its rounds. -/
lemma leadsTo_solved (q : Vec2 Float) (r : Float) : p.LeadsTo (p.solved q r) :=
  ⟨⟨le_rfl, le_rfl, le_rfl, fun _ => le_rfl⟩, List.prefix_rfl⟩

/-- A solution adds its residual to the measures, which is no counter. -/
lemma solved_within (q : Vec2 Float) (r : Float) : (p.solved q r).measures.Within p.measures :=
  ⟨le_rfl, le_rfl, le_rfl, fun _ => le_rfl⟩

variable {p} {d : Draw} {start : Vec2 Float} {a a' : Attempt μ}

/-- What continues a progress with one more round continues the progress. -/
lemma LeadsTo.of_after (h : (p.after d start a).LeadsTo run) : p.LeadsTo run :=
  ⟨(p.measures.within_enter _).trans h.measures, (p.rounds_prefix_after d start a).trans h.rounds⟩

/-- A run that ends with a shorter attempt is shorter. -/
lemma LeadsTo.shortens (h : (p.after d start a).LeadsTo run) (hs : a'.Shortens a) (q : Vec2 Float)
    (r : Float) : ((p.after d start a').solved q r).Shortens run := by
  obtain ⟨q', r', ho⟩ := hs.converged
  have hm := p.measures.enter_within_enter (d.round start a) (d.round start a') rfl
    hs.steps (congrArg Outcome.failure? ho)
  have hc := h.rounds.flatMap fun r => r.refused ++ [r.start]
  have hv := h.rounds.flatMap (·.visits)
  refine ⟨(solved_within _ q r).trans (hm.trans h.measures), ?_, ?_⟩
  · -- Both have drawn the same points when their attempts part.
    rw [candidates_solved, candidates_after, ← p.candidates_after d start a]
    exact hc.trans (List.prefix_append _ _)
  · show (p.after d start a').visits <+: _
    refine List.IsPrefix.trans ?_ hv
    show _ <+: (p.after d start a).visits
    rw [visits_after, visits_after]
    exact (List.prefix_append_right_inj _).mpr hs.visits

end Progress

namespace Equations

variable {s : Equations Float μ} {accuracy : Float} {c : Config} {p : Progress μ} {run : Run μ}

/-- A run continues the rounds that it begins with. -/
lemma IsRun.leadsTo (h : IsRun s c p run) : p.LeadsTo run := by
  induction h with
  | @spent p => exact p.leadsTo_unsolved none
  | @givenUp p d => exact ⟨p.measures.within_giveUp _, List.prefix_rfl⟩
  | @solved p d start a q r => exact ((p.after d start a).leadsTo_solved q r).of_after
  | again _ _ _ ih => exact ih.of_after

/-- A run that finds a solution also finds one to a looser accuracy, and is no longer. -/
theorem IsRun.relax {q : Vec2 Float} (hle : c.accuracy ≤ accuracy) (h : IsRun s c p run)
    (hq : run.result = .ok q) :
    ∃ run', IsRun s (c.withAccuracy accuracy) p run' ∧ (∃ q', run'.result = .ok q') ∧
      run'.Shortens run := by
  induction h with
  | spent | givenUp => cases hq
  | @solved p d start a q r h ho =>
    have hl := (p.after d start a).leadsTo_solved q r
    obtain h' | ⟨a', h', hs⟩ := h.relax hle
    · exact ⟨_, .solved h' ho, ⟨q, rfl⟩, .refl _, List.prefix_rfl, List.prefix_rfl⟩
    · obtain ⟨q', r', ho'⟩ := hs.converged
      exact ⟨_, .solved h' ho', ⟨q', rfl⟩, hl.shortens hs q' r'⟩
  | @again p d start a failure run h ho hr ih =>
    obtain h' | ⟨a', h', hs⟩ := h.relax hle
    · -- The attempt fails to both accuracies, and the runs go on alike.
      obtain ⟨run', hrun, hok, hs⟩ := ih hq
      exact ⟨run', .again h' ho hrun, hok, hs⟩
    · obtain ⟨q', r', ho'⟩ := hs.converged
      exact ⟨_, .solved h' ho', ⟨q', rfl⟩, hr.leadsTo.shortens hs q' r'⟩

end Equations

namespace Solver

/--
A solve that finds a solution also finds one with a looser accuracy, with no more attempts, iterations,
refused starts or failures of any kind. The points that it draws and those that it visits are the first
ones of the stricter solve.
-/
theorem solve_relax (s : Solver μ) (log : Logging) {p : Vec2 Float}
    (h : (s.solve log).result = .ok p) {accuracy : Float} (hf : accuracy.isFinite = true)
    (hle : s.config.accuracy ≤ accuracy) :
    ∃ q run run' m m',
      ((s.reconfigure (·.withAccuracy accuracy)).solve log).result = .ok q ∧
      (s.solve log).run = some run ∧ (s.solve log).solver.measures = some m ∧
      ((s.reconfigure (·.withAccuracy accuracy)).solve log).run = some run' ∧
      ((s.reconfigure (·.withAccuracy accuracy)).solve log).solver.measures = some m' ∧
      m'.attempts ≤ m.attempts ∧ m'.totalIterations ≤ m.totalIterations ∧
      m'.rejectedStarts ≤ m.rejectedStarts ∧
      (∀ kind, m'.failures.count kind ≤ m.failures.count kind) ∧
      run'.candidates <+: run.candidates ∧ run'.visits <+: run.visits := by
  have hc := isValid_of_ok h
  have hc' : (s.reconfigure (·.withAccuracy accuracy)).config.IsValid := hc.withAccuracy hf hle
  rw [solve_of_isValid hc] at h ⊢
  obtain ⟨run', hrun, ⟨q, hq⟩, hs⟩ := s.isRun.relax hle h
  have he : (s.reconfigure (·.withAccuracy accuracy)).run = run' := hrun.eq
  rw [solve_of_isValid hc', he]
  exact ⟨q, s.run, run', s.run.measures, run'.measures, hq, rfl, rfl, rfl, rfl,
    hs.measures.attempts, hs.measures.totalIterations, hs.measures.rejectedStarts,
    hs.measures.failures, hs.candidates, hs.visits⟩

/-- To a loose accuracy, the crossing is found from the same start with no more iterations. -/
theorem crossing_relax :
    ∃ q run run', (((crossing once).reconfigure (·.withAccuracy 100.0)).solve {}).result = .ok q ∧
      ((crossing once).solve {}).run = some run ∧
      (((crossing once).reconfigure (·.withAccuracy 100.0)).solve {}).run = some run' ∧
      run'.candidates <+: run.candidates ∧ run'.visits <+: run.visits := by
  have hle : (crossing once).config.accuracy ≤ 100.0 := by decide +kernel
  obtain ⟨q, run, run', m, m', hq, hr, -, hr', -, -, -, -, -, hc, hv⟩ :=
    solve_relax (crossing once) {} (result_of_run isValid_once crossing_once {}) (by decide) hle
  exact ⟨q, run, run', hq, hr, hr', hc, hv⟩

end Solver

end PlanarNewton
