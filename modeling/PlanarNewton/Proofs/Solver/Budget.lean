import PlanarNewton.Proofs.Solver.Solve

/-!
# Larger budgets

A run that found its solution makes the same rounds with larger budgets (`Solver.solve_enlarge`). The
total budget bounds the patience of a draw, which found its start anyway, and the steps of an attempt.
An attempt that it cuts short spends all iterations, and then the run has no solution
(`IsRun.unspent_of_ok`); so in a successful run each exhausted attempt spent its own budget
(`IsRound.allowance_of_exhausted`), and only a larger one of these makes a difference to it.
-/

namespace PlanarNewton

variable {μ : Type}

namespace Config

/-- The configuration with other budgets. -/
def withBudgets (c : Config) (perTry total : UInt64) : Config :=
  { c with iterationsPerTry := perTry, iterationsTotal := total }

variable {c : Config} {perTry total : UInt64}

/-- With a larger total budget, no fewer points may be refused. -/
lemma patience_le (ht : c.iterationsTotal.toNat ≤ total.toNat) (m : Measures) :
    c.patience m ≤ (c.withBudgets perTry total).patience m :=
  Nat.sub_le_sub_right ht _

/-- With larger budgets, no fewer steps are allowed. -/
lemma allowance_le (hp : c.iterationsPerTry.toNat ≤ perTry.toNat)
    (ht : c.iterationsTotal.toNat ≤ total.toNat) (m : Measures) :
    c.allowance m ≤ (c.withBudgets perTry total).allowance m :=
  min_le_min hp (Nat.sub_le_sub_right ht _)

/-- Larger budgets are valid as long as the total covers an attempt. -/
lemma IsValid.withBudgets (h : c.IsValid) (hp : c.iterationsPerTry.toNat ≤ perTry.toNat)
    (hle : perTry.toNat ≤ total.toNat) : (c.withBudgets perTry total).IsValid where
  accuracy_isFinite := h.accuracy_isFinite
  accuracy_pos := h.accuracy_pos
  perTry_pos := h.perTry_pos.trans_le hp
  perTry_le := hle
  range := h.range
  level := h.level

end Config

namespace Equations

variable {s : Equations Float μ} {c : Config} {perTry total : UInt64} {p : Progress μ} {d : Draw}
  {start : Vec2 Float} {a : Attempt μ} {run : Run μ} {q : Vec2 Float}

/-- A run that goes on to a solution has iterations left. -/
lemma IsRun.unspent_of_ok (h : IsRun s c p run) (hq : run.result = .ok q) :
    p.measures.totalIterations < c.iterationsTotal.toNat := by
  cases h with
  | spent => cases hq
  | givenUp => cases hq
  | solved h => exact h.unspent
  | again h => exact h.unspent

/-- An exhausted attempt that left iterations to the run was not cut short by the total budget. -/
lemma IsRound.allowance_of_exhausted (h : s.IsRound c p d start a)
    (ho : a.outcome = .failed .exhausted)
    (hu : (p.after d start a).measures.totalIterations < c.iterationsTotal.toNat) :
    c.iterationsPerTry.toNat < c.iterationsTotal.toNat - p.measures.totalIterations := by
  have hs := h.attempt.steps_of_exhausted ho
  rw [Progress.totalIterations_after ho] at hu
  -- Otherwise it took all iterations that were left.
  by_contra! hle
  rw [Config.allowance, min_eq_right hle] at hs
  omega

/-- A round whose attempt was not exhausted is the same with larger budgets. -/
lemma IsRound.enlarge (h : s.IsRound c p d start a)
    (hp : c.iterationsPerTry.toNat ≤ perTry.toNat) (ht : c.iterationsTotal.toNat ≤ total.toNat)
    (ho : a.outcome ≠ .failed .exhausted) : s.IsRound (c.withBudgets perTry total) p d start a where
  unspent := h.unspent.trans_le ht
  draw := h.draw.mono (Config.patience_le ht _) (by rw [h.found]; nofun)
  found := h.found
  attempt := h.attempt.mono (Config.allowance_le hp ht _) ho

/-- A round that left iterations is the same with a larger total budget. -/
lemma IsRound.enlarge_total (h : s.IsRound c p d start a)
    (ht : c.iterationsTotal.toNat ≤ total.toNat)
    (hu : (p.after d start a).measures.totalIterations < c.iterationsTotal.toNat) :
    s.IsRound (c.withBudgets c.iterationsPerTry total) p d start a := by
  by_cases ho : a.outcome = .failed .exhausted
  · -- Both allowances are the budget of a single attempt.
    have hlt := h.allowance_of_exhausted ho hu
    have ha : c.allowance p.measures =
        (c.withBudgets c.iterationsPerTry total).allowance p.measures := by
      rw [Config.allowance, min_eq_left hlt.le]
      exact (min_eq_left (hlt.le.trans (Nat.sub_le_sub_right ht _))).symm
    exact ⟨h.unspent.trans_le ht, h.draw.mono (Config.patience_le ht _) (by rw [h.found]; nofun),
      h.found, ha ▸ h.attempt⟩
  · exact h.enlarge le_rfl ht ho

/-- A successful run without exhausted attempts is the same with larger budgets. -/
lemma IsRun.enlarge (h : IsRun s c p run) (hq : run.result = .ok q)
    (hp : c.iterationsPerTry.toNat ≤ perTry.toNat) (ht : c.iterationsTotal.toNat ≤ total.toNat)
    (he : ∀ r ∈ run.rounds, r.outcome ≠ .failed .exhausted) :
    IsRun s (c.withBudgets perTry total) p run := by
  induction h with
  | spent | givenUp => cases hq
  | solved h ho => exact .solved (h.enlarge hp ht (by rw [ho]; nofun)) ho
  | again h ho hr ih =>
    have hx := he _ (hr.rounds_prefix.mem (List.mem_reverse.mpr List.mem_cons_self))
    exact .again (h.enlarge hp ht hx) ho (ih hq he)

/-- A successful run is the same with a larger total budget. -/
lemma IsRun.enlarge_total (h : IsRun s c p run) (hq : run.result = .ok q)
    (ht : c.iterationsTotal.toNat ≤ total.toNat) :
    IsRun s (c.withBudgets c.iterationsPerTry total) p run := by
  induction h with
  | spent | givenUp => cases hq
  | solved h ho => exact .solved (h.enlarge le_rfl ht (by rw [ho]; nofun)) ho
  | again h ho hr ih => exact .again (h.enlarge_total ht (hr.unspent_of_ok hq)) ho (ih hq)

end Equations

namespace Solver

/-- A solver that makes the same run answers the same. -/
lemma solve_withBudgets {s : Solver μ} {perTry total : UInt64} (hc : s.config.IsValid)
    (hc' : (s.config.withBudgets perTry total).IsValid) (log : Logging)
    (h : s.system.IsRun (s.config.withBudgets perTry total)
      { generator := s.generator, memory := s.memory } s.run) :
    (s.reconfigure (·.withBudgets perTry total)).solve log =
      { s.solve log with
        solver := (s.solve log).solver.reconfigure (·.withBudgets perTry total) } := by
  have hrun : (s.reconfigure (·.withBudgets perTry total)).run = s.run := h.eq
  have hv : (s.reconfigure (·.withBudgets perTry total)).config.IsValid := hc'
  rw [solve_of_isValid hc, solve_of_isValid hv, hrun]
  rfl

/--
A solve that found a solution does the same with a larger total budget, and, if none of its attempts
was exhausted, also with a larger budget for each attempt.
-/
theorem solve_enlarge (s : Solver μ) (log : Logging) {p : Vec2 Float}
    (h : (s.solve log).result = .ok p) :
    (∀ total, s.config.iterationsTotal ≤ total →
      (s.reconfigure (·.withBudgets s.config.iterationsPerTry total)).solve log =
        { s.solve log with
          solver := (s.solve log).solver.reconfigure
            (·.withBudgets s.config.iterationsPerTry total) }) ∧
    ((∀ run, (s.solve log).run = some run → ∀ r ∈ run.rounds, r.outcome ≠ .failed .exhausted) →
      ∀ perTry total, s.config.iterationsPerTry ≤ perTry → s.config.iterationsTotal ≤ total →
        perTry ≤ total →
        (s.reconfigure (·.withBudgets perTry total)).solve log =
          { s.solve log with
            solver := (s.solve log).solver.reconfigure (·.withBudgets perTry total) }) := by
  have hc := isValid_of_ok h
  have hq := h
  rw [solve_of_isValid hc] at hq
  constructor
  · intro total ht
    have ht' := UInt64.le_iff_toNat_le.mp ht
    exact solve_withBudgets hc (hc.withBudgets le_rfl (hc.perTry_le.trans ht')) log
      (s.isRun.enlarge_total hq ht')
  · intro he perTry total hp ht hle
    have hp' := UInt64.le_iff_toNat_le.mp hp
    have ht' := UInt64.le_iff_toNat_le.mp ht
    rw [solve_of_isValid hc] at he
    exact solve_withBudgets hc (hc.withBudgets hp' (UInt64.le_iff_toNat_le.mp hle)) log
      (s.isRun.enlarge hq hp' ht' (he _ rfl))

/-- One iteration is enough for the crossing, and larger budgets change nothing. -/
theorem crossing_enlarge :
    (((crossing once).reconfigure (·.withBudgets 1 100000)).solve {}).result = .ok ⟨2.0, 1.0⟩ ∧
    (((crossing once).reconfigure (·.withBudgets 1000 100000)).solve {}).result =
      .ok ⟨2.0, 1.0⟩ := by
  have hp := result_of_run isValid_once crossing_once {}
  have he : (crossing once).run.rounds.all (·.outcome.failure? != some .exhausted) = true := by
    decide +kernel
  obtain ⟨htotal, hboth⟩ := solve_enlarge (crossing once) {} hp
  constructor
  · exact (congrArg Solved.result (htotal 100000 (by decide))).trans hp
  · refine (congrArg Solved.result (hboth ?_ 1000 100000 (by decide) (by decide)
      (by decide))).trans hp
    intro run hrun r hr ho
    rw [solve_of_isValid isValid_once] at hrun
    cases hrun
    have hr := List.all_eq_true.mp he r hr
    rw [ho] at hr
    cases hr

end Solver

end PlanarNewton
