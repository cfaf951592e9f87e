import PlanarNewton.Proofs.Solver.Solve

/-!
# The budget ledger

What the measures of a run add up to (`Solver.solve_ledger`). Between two rounds the measures balance
(`Ledger`): the failures are the attempts, each of them was charged an iteration, no counter is beyond
its budget, and sampling was not given up. A failed round keeps the balance (`Ledger.after`), and each
of the three ways in which a run ends settles it (`IsRun.settled`).
-/

namespace PlanarNewton

variable {μ : Type}

/-- A recorded failure adds one to the total. -/
lemma FailureCounts.total_record (f : FailureCounts) (failure : Failure) :
    (f.record failure).total = f.total + 1 := by
  cases failure <;> simp only [record, total] <;> omega

/-- The balance of the measures between two rounds. -/
structure Ledger (c : Config) (m : Measures) : Prop where
  failures : m.failures.total = m.attempts
  attempts_le : m.attempts ≤ m.totalIterations
  attempts_pos : 0 < m.totalIterations → 0 < m.attempts
  total_le : m.totalIterations ≤ c.iterationsTotal.toNat
  rejected_lt : m.rejectedStarts < c.iterationsTotal.toNat
  iterations_le : m.iterations ≤ c.iterationsPerTry.toNat

/-- The balance of the measures after a run that ended with a result. -/
structure Settled (c : Config) (run : Run μ) : Prop where
  balance : run.measures.failures.total + (if run.result.isOk then 1 else 0) = run.measures.attempts
  attempts_pos : 1 ≤ run.measures.attempts
  attempts_le : run.measures.attempts ≤ c.iterationsTotal.toNat
  total_le : run.measures.totalIterations ≤ c.iterationsTotal.toNat
  rejected_le : run.measures.rejectedStarts ≤ c.iterationsTotal.toNat
  iterations_le : run.measures.iterations ≤ c.iterationsPerTry.toNat
  /-- Iterations are spent exactly if sampling was not given up, in a run without a solution. -/
  spent : run.givenUp = none →
    run.result.isOk = true ∨ run.measures.totalIterations = c.iterationsTotal.toNat
  rejected_lt : run.givenUp = none → run.measures.rejectedStarts < c.iterationsTotal.toNat
  givenUp : run.givenUp ≠ none → run.measures.rejectedStarts = c.iterationsTotal.toNat ∧
    run.measures.totalIterations < c.iterationsTotal.toNat

namespace Equations.IsRound

variable {s : Equations Float μ} {c : Config} {p : Progress μ} {d : Draw} {start : Vec2 Float}
  {a : Attempt μ}

/-- An attempt is allowed a step at least. -/
lemma allowance_pos (h : s.IsRound c p d start a) (hc : c.IsValid) :
    0 < c.allowance p.measures :=
  lt_min hc.perTry_pos (Nat.sub_pos_of_lt h.unspent)

/-- A round is charged no more than its attempt was allowed. -/
lemma charge_le (h : s.IsRound c p d start a) (hc : c.IsValid) :
    Measures.charge a.steps a.outcome.failure? ≤ c.allowance p.measures := by
  have hs := h.attempt.steps_le
  cases a.outcome with
  | converged => exact hs
  | failed failure =>
    -- A failure without a step is charged one all the same, and one was allowed.
    exact max_le hs (h.allowance_pos hc)

/-- After a round, the total budget is kept. -/
lemma total_after_le (h : s.IsRound c p d start a) (hc : c.IsValid) :
    (p.after d start a).measures.totalIterations ≤ c.iterationsTotal.toNat := by
  have hle := (h.charge_le hc).trans (min_le_right _ _)
  have hu := h.unspent
  show p.measures.totalIterations + Measures.charge a.steps a.outcome.failure? ≤ _
  omega

/-- After a round, the budget of an attempt is kept. -/
lemma iterations_after_le (h : s.IsRound c p d start a) (hc : c.IsValid) :
    (p.after d start a).measures.iterations ≤ c.iterationsPerTry.toNat :=
  (h.charge_le hc).trans (min_le_left _ _)

/-- A round that found a start leaves patience. -/
lemma rejected_after_lt (h : s.IsRound c p d start a) :
    (p.after d start a).measures.rejectedStarts < c.iterationsTotal.toNat := by
  have hd := h.draw.refused_lt_of_some h.found
  rw [Config.patience] at hd
  show p.measures.rejectedStarts + d.refused.length < _
  omega

end Equations.IsRound

namespace Ledger

variable {s : Equations Float μ} {c : Config} {p : Progress μ}

/-- At the beginning, the ledger is balanced. -/
lemma start (hc : c.IsValid) : Ledger c {} where
  failures := rfl
  attempts_le := le_rfl
  attempts_pos := id
  total_le := Nat.zero_le _
  rejected_lt := hc.perTry_pos.trans_le hc.perTry_le
  iterations_le := Nat.zero_le _

/-- A failed round keeps the balance. -/
theorem after (hl : Ledger c p.measures) (hc : c.IsValid) {d : Draw} {start : Vec2 Float}
    {a : Attempt μ} {failure : Failure} (h : s.IsRound c p d start a)
    (ho : a.outcome = .failed failure) : Ledger c (p.after d start a).measures := by
  have htotal := @Progress.totalIterations_after _ p d start a failure ho
  have hattempts : (p.after d start a).measures.attempts = p.measures.attempts + 1 := rfl
  have hle := hl.attempts_le
  refine ⟨?_, ?_, ?_, h.total_after_le hc, h.rejected_after_lt, h.iterations_after_le hc⟩
  · rw [Progress.failures_after ho, FailureCounts.total_record, hl.failures, hattempts]
  · -- One attempt more, and at least one iteration more.
    omega
  · omega

/-- Sampling that is given up spends all patience, and counts as an attempt without iterations. -/
lemma settled_giveUp (hl : Ledger c p.measures) {d : Draw}
    (hu : p.measures.totalIterations < c.iterationsTotal.toNat)
    (hd : s.IsDraw c.lower c.upper (c.patience p.measures) p.generator d) (hn : d.start = none) :
    Settled c ((p.giveUp d).unsolved (some d.refused)) := by
  have hr : (p.giveUp d).measures.rejectedStarts = c.iterationsTotal.toNat := by
    show p.measures.rejectedStarts + d.refused.length = _
    -- The patience was what the refused points so far had left of the budget.
    have := hl.rejected_lt
    rw [hd.refused_of_none hn, Config.patience]
    omega
  have hle := hl.attempts_le
  constructor
  · exact (p.measures.failures.total_record .constraintViolated).trans (congrArg _ hl.failures)
  · exact Nat.le_add_left _ _
  · show p.measures.attempts + 1 ≤ _
    omega
  · exact hu.le
  · exact hr.le
  · exact hl.iterations_le
  · nofun
  · nofun
  · exact fun _ => ⟨hr, hu⟩

/-- A run that spent its iterations made attempts for them. -/
lemma settled_spent (hl : Ledger c p.measures) (hc : c.IsValid)
    (hs : c.iterationsTotal.toNat ≤ p.measures.totalIterations) : Settled c (p.unsolved none) where
  balance := hl.failures
  attempts_pos := hl.attempts_pos ((hc.perTry_pos.trans_le hc.perTry_le).trans_le hs)
  attempts_le := hl.attempts_le.trans hl.total_le
  total_le := hl.total_le
  rejected_le := hl.rejected_lt.le
  iterations_le := hl.iterations_le
  spent _ := .inr (hl.total_le.antisymm hs)
  rejected_lt _ := hl.rejected_lt
  givenUp h := absurd rfl h

/-- The last attempt of a successful run is the only one that did not fail. -/
lemma settled_solved (hl : Ledger c p.measures) (hc : c.IsValid) {d : Draw} {start : Vec2 Float}
    {a : Attempt μ} {q : Vec2 Float} {r : Float} (h : s.IsRound c p d start a)
    (ho : a.outcome = .converged q r) : Settled c ((p.after d start a).solved q r) where
  balance := by
    show (p.after d start a).measures.failures.total + 1 = p.measures.attempts + 1
    rw [Progress.failures_after_of_converged ho, hl.failures]
  attempts_pos := Nat.le_add_left _ _
  attempts_le := (Nat.succ_le_succ hl.attempts_le).trans h.unspent
  total_le := h.total_after_le hc
  rejected_le := h.rejected_after_lt.le
  iterations_le := h.iterations_after_le hc
  spent _ := .inl rfl
  rejected_lt _ := h.rejected_after_lt
  givenUp h := absurd rfl h

end Ledger

/-- Every run from a balance is settled in the end. -/
theorem Equations.IsRun.settled {s : Equations Float μ} {c : Config} {p : Progress μ} {run : Run μ}
    (h : s.IsRun c p run) (hc : c.IsValid) (hl : Ledger c p.measures) : Settled c run := by
  induction h with
  | spent hs => exact hl.settled_spent hc hs
  | givenUp hu hd hn => exact hl.settled_giveUp hu hd hn
  | solved h ho => exact hl.settled_solved hc h ho
  | again h ho _ ih => exact ih (hl.after hc h ho)

/--
The measures that a solve leaves add up, within the budgets. A solve without a solution has spent
either all iterations or all patience with sampling, and not both.
-/
theorem Solver.solve_ledger (s : Solver μ) (log : Logging) (h : s.config.validate = .ok ()) :
    ∃ run m, (s.solve log).run = some run ∧ (s.solve log).solver.measures = some m ∧
      1 ≤ m.attempts ∧ m.attempts ≤ s.config.iterationsTotal.toNat ∧
      m.totalIterations ≤ s.config.iterationsTotal.toNat ∧
      m.rejectedStarts ≤ s.config.iterationsTotal.toNat ∧
      m.iterations ≤ s.config.iterationsPerTry.toNat ∧
      m.failures.total + (if (s.solve log).result.isOk then 1 else 0) = m.attempts ∧
      (∀ e, (s.solve log).result = .error e →
        e = .noSolution m.attempts m.totalIterations ∧
        Xor
          (m.totalIterations = s.config.iterationsTotal.toNat ∧
            m.rejectedStarts < s.config.iterationsTotal.toNat)
          (m.rejectedStarts = s.config.iterationsTotal.toNat ∧
            m.totalIterations < s.config.iterationsTotal.toNat) ∧
        (m.totalIterations = s.config.iterationsTotal.toNat →
          run.givenUp = none ∧ m = tally run.rounds) ∧
        (m.rejectedStarts = s.config.iterationsTotal.toNat → ∃ refused,
          run.givenUp = some refused ∧
          m = ((tally run.rounds).refuse refused.length).recordGiveUp)) ∧
      (∀ p, (s.solve log).result = .ok p →
        m.rejectedStarts < s.config.iterationsTotal.toNat) := by
  have hc := Config.validate_iff.mp h
  have hs := s.isRun.settled hc (.start hc)
  rw [solve_of_isValid hc]
  refine ⟨s.run, s.run.measures, rfl, rfl, hs.attempts_pos, hs.attempts_le, hs.total_le,
    hs.rejected_le, hs.iterations_le, hs.balance, ?_, ?_⟩
  · intro e he
    change s.run.result = _ at he
    have hm := s.isRun.measures_of_error rfl he
    refine ⟨s.isRun.result_of_error he, ?_⟩
    cases hg : s.run.givenUp with
    | none =>
      have hr := hs.rejected_lt hg
      have ht := (hs.spent hg).resolve_left fun hok => by rw [he] at hok; cases hok
      refine ⟨.inl ⟨⟨ht, hr⟩, fun h => hr.ne h.1⟩, fun _ => ⟨rfl, ?_⟩, fun h => absurd h hr.ne⟩
      rw [hm, Run.ledger, hg]
    | some refused =>
      obtain ⟨hr, ht⟩ := hs.givenUp (by rw [hg]; nofun)
      refine ⟨.inr ⟨⟨hr, ht⟩, fun h => ht.ne h.1⟩, fun h => absurd h ht.ne, fun _ =>
        ⟨refused, rfl, ?_⟩⟩
      rw [hm, Run.ledger, hg]
  · intro p hp
    exact hs.rejected_lt (s.isRun.measures_of_ok rfl hp).1

/-- Outside the half plane, one of the two budgets is spent. -/
theorem Solver.crossing_ledger :
    ∃ m, ((crossing outside).solve {}).solver.measures = some m ∧ m.failures.total = m.attempts ∧
      Xor (m.totalIterations = 3 ∧ m.rejectedStarts < 3)
        (m.rejectedStarts = 3 ∧ m.totalIterations < 3) := by
  obtain ⟨e, he⟩ := exists_error_of_run isValid_outside crossing_outside {}
  obtain ⟨run, m, -, hm, -, -, -, -, -, hb, hx, -⟩ :=
    solve_ledger (crossing outside) {} (Config.validate_iff.mpr isValid_outside)
  rw [he] at hb
  exact ⟨m, hm, hb, (hx e he).2.1⟩

end PlanarNewton
