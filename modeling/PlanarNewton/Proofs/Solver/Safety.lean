import PlanarNewton.Proofs.Solver.Checked
import PlanarNewton.Proofs.Solver.Ledger

/-!
# Runs without a fault

No check of a solve fails (`Solver.solve_checked`): with all checks made, it answers what it answers
without them. The sampler is safe since the check of a search range looks at the same rounded width. A
counter is moved on by one, up to a budget of 64 bits at most, and what keeps it there at the head of
every round is the balance of the ledger. Each loop follows the derivation of the draw, the attempt or
the run that it makes, and hands over the records of that in order (`IsDraw.loop?_eq`,
`IsAttempt.loop?_eq`, `IsRun.loop?_eq`). So the records that a solve makes are those that its run tells
(`Solver.tell_eq`).
-/

namespace PlanarNewton
open Binary64 Counter

variable {μ σ : Type}

namespace FailureCounts

/-- A failure is counted without a fault below the limit. -/
lemma record?_eq {f : FailureCounts} (failure : Failure) (h : f.total + 1 < 2 ^ 64) :
    f.record? failure = some (f.record failure) := by
  rw [total] at h
  cases failure with
  | singular => rw [record?, add?_eq (by omega)]; rfl
  | nonFinite => rw [record?, add?_eq (by omega)]; rfl
  | constraintViolated => rw [record?, add?_eq (by omega)]; rfl
  | exhausted => rw [record?, add?_eq (by omega)]; rfl

/-- Failures are added up without a fault if their sum has 64 bits. -/
lemma total?_eq {f : FailureCounts} (h : f.total < 2 ^ 64) : f.total? = some f.total := by
  rw [total] at h
  rw [total?, add?_eq (by omega), Option.bind_eq_bind, Option.bind_some, add?_eq (by omega),
    Option.bind_some, add?_eq (by omega)]
  rfl

end FailureCounts

namespace Measures

/-- An entry is made without a fault if none of the counters is at its limit. -/
lemma record?_eq {m : Measures} {steps : ℕ} {failure : Option Failure}
    (ha : m.attempts + 1 < 2 ^ 64)
    (ht : m.totalIterations + charge steps failure < 2 ^ 64) (hf : m.failures.total + 1 < 2 ^ 64) :
    m.record? steps failure = some (m.record steps failure) := by
  cases failure with
  | none =>
    rw [charge] at ht
    rw [record?, add?_eq ha, Option.bind_eq_bind, Option.bind_some, add?_eq ht]
    rfl
  | some failure =>
    rw [charge] at ht
    rw [record?, add?_eq ha, Option.bind_eq_bind, Option.bind_some, add?_eq (by omega)]
    by_cases hs : steps = 0
    · subst hs
      have hadd : add? (m.totalIterations + 0) 1 = some (m.totalIterations + 1) := add?_eq (by omega)
      simp only [Option.bind_eq_bind, Option.bind_some, if_true, hadd,
        FailureCounts.record?_eq failure hf]
      rfl
    · have hmax : max steps 1 = steps := by omega
      simp only [Option.bind_eq_bind, Option.bind_some, if_neg hs,
        FailureCounts.record?_eq failure hf, record, charge, hmax]
      rfl

/-- A sampling that is given up is entered without a fault below the limits. -/
lemma recordGiveUp?_eq {m : Measures} (ha : m.attempts + 1 < 2 ^ 64)
    (hf : m.failures.total + 1 < 2 ^ 64) : m.recordGiveUp? = some m.recordGiveUp := by
  rw [recordGiveUp?, add?_eq ha, FailureCounts.record?_eq _ hf]
  rfl

end Measures

namespace Generator

/-- Along a side of an accepted box, the sampler is asked for a number of a proper range. -/
lemma uniform?_eq (g : Generator) {low high : Float} (h : IsSide low high) :
    g.uniform? low high = some (uniform low high g.next.1, g.next.2) :=
  if_pos ⟨h.low_lt_high, h.width_finite⟩

/-- From an accepted search range, every point can be drawn. -/
lemma point?_eq (g : Generator) {lower upper : Vec2 Float}
    (h : Config.checkSearchRange lower upper = .ok ()) :
    g.point? lower upper = some (g.point lower upper) := by
  obtain ⟨hx, hy⟩ := Config.isSide_of_checkSearchRange h
  simp only [point?, uniform?_eq _ hx, uniform?_eq _ hy, Option.bind_eq_bind, Option.bind_some]
  rfl

/-- The height of this box is not finite, though its sides are. -/
example : ((Generator.ofSeed 1).point? ⟨-1.0, -1e308⟩ ⟨1.0, 1e308⟩).isNone = true := by
  decide +kernel

end Generator

namespace Equations

variable {s : Equations Float μ} {c : Config} (note : σ → Event → σ)

/-- The search for a start follows its derivation, and is noted if it is given up. -/
lemma IsDraw.loop?_eq (hr : Config.checkSearchRange c.lower c.upper = .ok ()) {patience : ℕ}
    {g : Generator} {d : Draw} (h : s.IsDraw c.lower c.upper patience g d) {m : Measures}
    (hm : m.rejectedStarts + patience = c.iterationsTotal.toNat) (hp : 0 < patience)
    (refused : List (Vec2 Float)) (x : σ) {turns : ℕ} (ht : patience ≤ turns) :
    loop? (s.drawTurn? c note) turns ((m, ⟨refused, none, g⟩), x) =
      some ((m.refuse d.refused.length, { d with refused := refused ++ d.refused }),
        (d.events m).foldl note x) := by
  have hlt := c.iterationsTotal.toNat_lt
  induction h generalizing m refused turns with
  | spent => exact absurd hp (lt_irrefl 0)
  | @accepted patience g p g' hpt hc =>
    obtain ⟨k, rfl⟩ := Nat.exists_eq_add_of_lt ht
    apply loop?_of_inr
    rw [drawTurn?, g.point?_eq hr, hpt]
    simp [hc, Measures.refuse, Draw.events]
  | @refused patience g p g' d hpt hc h ih =>
    obtain ⟨k, rfl⟩ := Nat.exists_eq_add_of_lt ht
    have hadd := add?_eq (a := m.rejectedStarts) (b := 1) (by omega)
    have hturn : s.drawTurn? c note ((m, ⟨refused, none, g⟩), x) =
        if c.iterationsTotal.toNat ≤ m.rejectedStarts + 1 then
          some (.inr ((m.refuse 1, ⟨refused ++ [p], none, g'⟩),
            note x (.samplingGivenUp (m.rejectedStarts + 1))))
        else some (.inl ((m.refuse 1, ⟨refused ++ [p], none, g'⟩), x)) := by
      rw [drawTurn?, g.point?_eq hr, hpt]
      simp only [Option.bind_eq_bind, Option.bind_some, hc, hadd]
      rfl
    cases patience with
    | zero =>
      -- This was the last point that there was patience for.
      cases h
      rw [if_pos (by omega)] at hturn
      exact loop?_of_inr hturn _
    | succ patience =>
      rw [if_neg (by omega)] at hturn
      have hm' : (m.refuse 1).rejectedStarts + (patience + 1) = c.iterationsTotal.toNat := by
        show m.rejectedStarts + 1 + (patience + 1) = _
        omega
      rw [loop?_of_inl hturn, ih hm' (Nat.succ_pos _) _ (Nat.le_add_right _ _)]
      simp [Draw.after, Draw.events, Measures.refuse, Nat.add_assoc, Nat.add_comm]

/-- The search for a start has turns enough, as long as there is patience. -/
theorem IsDraw.tellStart?_eq (hr : Config.checkSearchRange c.lower c.upper = .ok ())
    {m : Measures} (hm : m.rejectedStarts < c.iterationsTotal.toNat) {g : Generator} {d : Draw}
    (h : s.IsDraw c.lower c.upper (c.patience m) g d) (x : σ) :
    s.tellStart? c note m g x =
      some ((m.refuse d.refused.length, d), (d.events m).foldl note x) :=
  h.loop?_eq note hr (Nat.add_sub_cancel' hm.le) (Nat.sub_pos_of_lt hm) [] x
    ((Nat.sub_le _ _).trans (Nat.le_succ _))

/--
An attempt follows its derivation, with the steps allowed that both budgets leave, and its steps are noted in
order.
-/
lemma IsAttempt.loop?_eq {budget left : ℕ} {p : Vec2 Float} {m : μ} {a : Attempt μ}
    (h : s.IsAttempt c.accuracy left p m a) {steps : ℕ}
    (hl : steps + left = min c.iterationsPerTry.toNat budget) (visits : List Visit) (x : σ)
    {turns : ℕ} (ht : left ≤ turns) :
    loop? (s.stepTurn? c note budget) (turns + 1) (⟨p, m, steps, visits⟩, x) =
      some (⟨visits ++ a.visits, steps + a.steps, a.outcome, a.memory⟩,
        (a.events steps).foldl note x) := by
  have hlt := c.iterationsPerTry.toNat_lt
  induction h generalizing steps visits x turns with
  | nonFinite he hf =>
    apply loop?_of_inr
    simp [stepTurn?, he, hf, Attempt.events]
  | converged he hf hr =>
    apply loop?_of_inr
    simp [stepTurn?, he, hf, hr, Attempt.events]
  | exhausted he ho =>
    have hs : c.iterationsPerTry.toNat ≤ steps ∨ budget ≤ steps := by omega
    apply loop?_of_inr
    simp [stepTurn?, he, ho.isFinite, ho.not_lt, hs, Attempt.events]
  | stuck he ho ha =>
    have hs : ¬(c.iterationsPerTry.toNat ≤ steps ∨ budget ≤ steps) := by omega
    have hadd := add?_eq (a := steps) (b := 1) (by omega)
    apply loop?_of_inr
    simp [stepTurn?, he, ho.isFinite, ho.not_lt, hs, hadd, ha, Attempt.events]
  | @step left p m e m' next a he ho ha h ih =>
    obtain ⟨k, rfl⟩ := Nat.exists_eq_add_of_lt ht
    have hs : ¬(c.iterationsPerTry.toNat ≤ steps ∨ budget ≤ steps) := by omega
    have hadd := add?_eq (a := steps) (b := 1) (by omega)
    have hturn : s.stepTurn? c note budget (⟨p, m, steps, visits⟩, x) =
        some (.inl (⟨next, m', steps + 1, visits ++ [⟨p, e⟩]⟩,
          note x (.iteration (steps + 1) p e.objective))) := by
      simp [stepTurn?, he, ho.isFinite, ho.not_lt, hs, hadd, ha]
    rw [loop?_of_inl hturn, ih (by omega) _ _ (Nat.le_add_right _ _), List.append_assoc,
      Nat.add_right_comm]
    rfl

/-- An attempt has turns enough for the steps that both budgets leave. -/
theorem IsAttempt.tellAttempt?_eq {budget : ℕ} {p : Vec2 Float} {m : μ} {a : Attempt μ}
    (h : s.IsAttempt c.accuracy (min c.iterationsPerTry.toNat budget) p m a) (x : σ) :
    s.tellAttempt? c note budget p m x = some (a, (a.events 0).foldl note x) := by
  refine (h.loop?_eq note (Nat.zero_add _) [] x (Nat.min_le_left _ _)).trans ?_
  rw [Nat.zero_add]
  rfl

/-- What an attempt comes to does not depend on its notes. -/
theorem IsAttempt.attempt?_eq {budget : ℕ} {p : Vec2 Float} {m : μ} {a : Attempt μ}
    (h : s.IsAttempt c.accuracy (min c.iterationsPerTry.toNat budget) p m a) :
    s.attempt? c budget p m = some a := by
  rw [attempt?, h.tellAttempt?_eq]
  rfl

variable {p : Progress μ} {d : Draw}

/-- A round is made without a fault, entered in the measures, and hands over its records. -/
lemma IsRound.roundTurn?_eq (hc : c.IsValid) (hl : Ledger c p.measures)
    (hn : p.measures.attempts = p.rounds.length) {start : Vec2 Float} {a : Attempt μ}
    (h : s.IsRound c p d start a) (x : σ) :
    s.roundTurn? c note (p, x) = some (match a.outcome with
      | .converged q r => .inr ((p.after d start a).solved q r,
          ((d.round start a).events (p.rounds.length + 1)).foldl note x)
      | .failed _ => .inl (p.after d start a,
          ((d.round start a).events (p.rounds.length + 1)).foldl note x)) := by
  have hlt := c.iterationsTotal.toNat_lt
  have hu := h.unspent
  have hd := h.draw.tellStart?_eq note hc.range hl.rejected_lt x
  have hdraw : d.events p.measures = [] := by rw [Draw.events, h.found]
  have hbudget : sub? c.iterationsTotal.toNat (p.measures.refuse d.refused.length).totalIterations =
      some (c.iterationsTotal.toNat - p.measures.totalIterations) := sub?_eq hu.le
  have ha := h.attempt.tellAttempt?_eq note x
  -- No more attempts were made than iterations were spent, and an iteration is left.
  have hattempts : p.measures.attempts + 1 < 2 ^ 64 := by
    have := hl.attempts_le
    omega
  have hrecord : (p.measures.refuse d.refused.length).record? a.steps a.outcome.failure? =
      some (p.after d start a).measures :=
    Measures.record?_eq hattempts ((h.total_after_le hc).trans_lt hlt) (hl.failures ▸ hattempts)
  have hevents : (d.round start a).events (p.rounds.length + 1) = a.events 0 ++
      match a.outcome with
      | .converged .. => []
      | .failed failure =>
        [.attemptFailed (p.rounds.length + 1) start failure (max a.steps 1)] := rfl
  rw [hevents, List.foldl_append]
  rw [hdraw] at hd
  simp only [roundTurn?, if_pos hu, hd, h.found, hbudget, List.foldl_nil, ha, hrecord,
    Option.bind_eq_bind, Option.bind_some]
  cases ho : a.outcome with
  | converged q r => rfl
  | failed failure =>
    -- The number of the attempt is what the measures say after its entry.
    simp only [Progress.after, Measures.enter, Draw.round, ho, ← hn]
    rfl

/-- A sampling that is given up is entered in the measures without a fault, and hands over one record. -/
lemma roundTurn?_of_giveUp (hc : c.IsValid) (hl : Ledger c p.measures)
    (hu : p.measures.totalIterations < c.iterationsTotal.toNat)
    (hd : s.IsDraw c.lower c.upper (c.patience p.measures) p.generator d) (hn : d.start = none)
    (x : σ) :
    s.roundTurn? c note (p, x) = some (.inr ((p.giveUp d).unsolved (some d.refused),
      note x (.samplingGivenUp (p.giveUp d).measures.rejectedStarts))) := by
  have hlt := c.iterationsTotal.toNat_lt
  have hattempts : p.measures.attempts + 1 < 2 ^ 64 := by
    have := hl.attempts_le
    omega
  have hrecord : (p.measures.refuse d.refused.length).recordGiveUp? =
      some (p.giveUp d).measures :=
    Measures.recordGiveUp?_eq hattempts (hl.failures ▸ hattempts)
  have h := hd.tellStart?_eq note hc.range hl.rejected_lt x
  rw [Draw.events, hn] at h
  simp only [roundTurn?, if_pos hu, h, hn, hrecord, Option.bind_eq_bind, Option.bind_some]
  rfl

/--
A run follows its derivation, with the ledger balanced at the head of every round, and hands over its
records in order.
-/
theorem IsRun.loop?_eq (hc : c.IsValid) {run : Run μ} (h : s.IsRun c p run)
    (hl : Ledger c p.measures) (hn : p.measures.attempts = p.rounds.length) (x : σ) {turns : ℕ}
    (ht : c.iterationsTotal.toNat ≤ p.measures.totalIterations + turns) :
    ∃ later, run.events = p.events ++ later ++ [run.lastEvent] ∧
      loop? (s.roundTurn? c note) (turns + 1) (p, x) = some (run, later.foldl note x) := by
  induction h generalizing x turns with
  | @spent p hs =>
    refine ⟨[], rfl, loop?_of_inr ?_ _⟩
    rw [roundTurn?, if_neg hs.not_gt]
    rfl
  | @givenUp p d hu hd hn' =>
    exact ⟨[_], rfl, loop?_of_inr (roundTurn?_of_giveUp note hc hl hu hd hn' x) _⟩
  | @solved p d start a q r h ho =>
    have hturn := h.roundTurn?_eq note hc hl hn x
    rw [ho] at hturn
    refine ⟨_, ?_, loop?_of_inr hturn _⟩
    rw [← p.events_after]
    exact congrArg (· ++ _) (List.append_nil _)
  | @again p d start a failure run h ho _ ih =>
    have hturn := h.roundTurn?_eq note hc hl hn x
    rw [ho] at hturn
    have hu := h.unspent
    obtain ⟨turns, rfl⟩ : ∃ k, turns = k + 1 := ⟨turns - 1, by omega⟩
    -- The round was charged an iteration, so one turn less is enough for what is left.
    have ht' : c.iterationsTotal.toNat ≤ (p.after d start a).measures.totalIterations + turns := by
      rw [Progress.totalIterations_after ho]
      omega
    obtain ⟨later, hevents, hloop⟩ := ih (hl.after hc h ho) (congrArg Nat.succ hn) _ ht'
    refine ⟨(d.round start a).events (p.rounds.length + 1) ++ later, ?_, ?_⟩
    · rw [hevents, p.events_after, List.append_assoc p.events]
    · rw [loop?_of_inl hturn, hloop, List.foldl_append]

end Equations

namespace Solver

/-- A solve makes its records as its run tells them, after the start of a logger that it installs. -/
theorem tell_eq (s : Solver μ) (log : Logging) : s.tell log = some (s.solve log, s.made log) := by
  cases hv : s.config.validate with
  | error e => rw [tell, hv, made_of_refused hv, solve_of_refused hv]
  | ok =>
    have hc := Config.validate_iff.mp hv
    obtain ⟨started, hl⟩ := startLogging_ok hc log
    obtain ⟨later, hevents, hrun⟩ := s.isRun.loop?_eq Journal.write hc (.start hc) rfl
      ⟨started, s.startRecords log⟩ (Nat.le_add_left _ _)
    have hwrite : (later.foldl Journal.write ⟨started, s.startRecords log⟩).write s.run.lastEvent =
        s.run.events.foldl Journal.write ⟨started, s.startRecords log⟩ := by
      rw [hevents, List.foldl_append]
      rfl
    rw [Journal.foldl_write _ s.run.events] at hwrite
    simp only [tell, hv, hl, Equations.tellRun?, hrun, Option.bind_eq_bind, Option.bind_some, hwrite,
      made, solve_of_isValid hc, Solved.traced, Logging.maximum_recordAll]
    rfl

/--
With all checks made, a solve answers what it answers without them: no counter exceeds 64 bits, no
difference falls below zero, no range that the sampler is asked for is empty or of infinite width, and
every loop ends in time. With a valid configuration there is a run, and its failures can be added up as well.
-/
theorem solve_checked (s : Solver μ) (log : Logging) :
    s.solve? log = some (s.solve log) ∧
    (s.config.validate = .ok () → ∃ run, (s.solve log).run = some run ∧
      run.measures.failures.total? = some run.measures.failures.total) := by
  constructor
  · rw [solve?, tell_eq]
    rfl
  · intro hv
    have hc := Config.validate_iff.mp hv
    have hs := s.isRun.settled hc (.start hc)
    have hlt := s.config.iterationsTotal.toNat_lt
    refine ⟨s.run, congrArg Solved.run (solve_of_isValid hc log), FailureCounts.total?_eq ?_⟩
    have hb := hs.balance
    have ha := hs.attempts_le
    omega

/-- Outside the half plane, every failure of the sampling is counted without a fault. -/
theorem crossing_checked :
    (crossing outside).solve? {} = some ((crossing outside).solve {}) ∧
    ∃ run, ((crossing outside).solve {}).run = some run ∧
      run.measures.failures.total? = some run.measures.failures.total := by
  obtain ⟨hs, ht⟩ := solve_checked (crossing outside) {}
  exact ⟨hs, ht (Config.validate_iff.mpr isValid_outside)⟩

end Solver

end PlanarNewton
