import PlanarNewton.Proofs.Solver.Attempt
import PlanarNewton.Proofs.Solver.Start
import PlanarNewton.Solver.Run

/-!
# Derivations of runs

`IsRun` describes a run by a rule for each way that it goes on or ends, over the derivations of draws
and attempts. A failed round is charged at least one iteration, so the turns that the loop is given
never cut it short: it computes the run that has a derivation (`isRun_run`, `IsRun.eq`). The measures
of a run are the tally of its rounds (`IsRun.measures_of_ok`, `IsRun.measures_of_error`), and its
visits are evaluations of the system in order (`IsRun.replay`).
-/

namespace PlanarNewton

variable {μ : Type}

/-- A failure is counted where it belongs. -/
lemma FailureCounts.count_record (c : FailureCounts) (failure kind : Failure) :
    (c.record failure).count kind = c.count kind + (if failure = kind then 1 else 0) := by
  cases failure <;> cases kind <;> rfl

/-- The entry of so many refused points. -/
def Measures.refuse (m : Measures) (n : ℕ) : Measures :=
  { m with rejectedStarts := m.rejectedStarts + n }

/-- The entry of a round in the measures: its refused points, and then its attempt. -/
def Measures.enter (m : Measures) (r : Round) : Measures :=
  (m.refuse r.refused.length).record r.steps r.outcome.failure?

/-- The measures of so many rounds, without the residual of a solution. -/
def tally (rounds : List Round) : Measures :=
  rounds.foldl Measures.enter {}

/-- The entries of a run: its rounds, and the sampling that was given up. -/
def Run.ledger (run : Run μ) : Measures :=
  match run.givenUp with
  | none => tally run.rounds
  | some refused => ((tally run.rounds).refuse refused.length).recordGiveUp

/-- The tally with one more round has one more entry. -/
lemma tally_concat (rounds : List Round) (r : Round) :
    tally (rounds ++ [r]) = (tally rounds).enter r := by
  rw [tally, List.foldl_append]
  rfl

namespace Config

/-- How many points may still be refused. -/
def patience (c : Config) (m : Measures) : ℕ :=
  c.iterationsTotal.toNat - m.rejectedStarts

/-- How many steps the next attempt may take. -/
def allowance (c : Config) (m : Measures) : ℕ :=
  min c.iterationsPerTry.toNat (c.iterationsTotal.toNat - m.totalIterations)

end Config

/-- The round of a draw, its start and the attempt from there. -/
def Draw.round (d : Draw) (start : Vec2 Float) (a : Attempt μ) : Round :=
  ⟨d.refused, start, a.visits, a.steps, a.outcome⟩

namespace Progress

/-- The progress after one more round. -/
def after (p : Progress μ) (d : Draw) (start : Vec2 Float) (a : Attempt μ) : Progress μ where
  measures := p.measures.enter (d.round start a)
  generator := d.generator
  memory := a.memory
  rounds := d.round start a :: p.rounds

/-- The progress after a sampling that was given up. -/
def giveUp (p : Progress μ) (d : Draw) : Progress μ :=
  { p with
    measures := (p.measures.refuse d.refused.length).recordGiveUp
    generator := d.generator }

/-- The evaluations made so far, in order. -/
def visits (p : Progress μ) : List Visit :=
  p.rounds.reverse.flatMap (·.visits)

/-- A round adds the visits of its attempt, in order. -/
lemma visits_after (p : Progress μ) (d : Draw) (start : Vec2 Float) (a : Attempt μ) :
    (p.after d start a).visits = p.visits ++ a.visits := by
  rw [visits, after, List.reverse_cons, List.flatMap_append, List.flatMap_singleton]
  rfl

/-- The points drawn so far, in order. -/
def candidates (p : Progress μ) : List (Vec2 Float) :=
  p.rounds.reverse.flatMap fun r => r.refused ++ [r.start]

/-- A round adds its refused points and its start. -/
lemma candidates_after (p : Progress μ) (d : Draw) (start : Vec2 Float) (a : Attempt μ) :
    (p.after d start a).candidates = p.candidates ++ (d.refused ++ [start]) := by
  rw [candidates, after, List.reverse_cons, List.flatMap_append, List.flatMap_singleton]
  rfl

/-- The points drawn by a run that ends without a solution are those of its rounds. -/
lemma candidates_unsolved (p : Progress μ) : (p.unsolved none).candidates = p.candidates :=
  List.append_nil _

/-- The points drawn by a run that ends with a solution are those of its rounds. -/
lemma candidates_solved (p : Progress μ) (q : Vec2 Float) (r : Float) :
    (p.solved q r).candidates = p.candidates :=
  List.append_nil _

/-- A round is added after the rounds before. -/
lemma rounds_prefix_after (p : Progress μ) (d : Draw) (start : Vec2 Float) (a : Attempt μ) :
    p.rounds.reverse <+: (p.after d start a).rounds.reverse := by
  rw [after, List.reverse_cons]
  exact List.prefix_append _ _

/-- The measures are the tally of the rounds. -/
def IsTallied (p : Progress μ) : Prop :=
  p.measures = tally p.rounds.reverse

/-- The measures stay the tally when a round is added to both. -/
lemma IsTallied.after {p : Progress μ} (h : p.IsTallied) (d : Draw) (start : Vec2 Float)
    (a : Attempt μ) : (p.after d start a).IsTallied := by
  rw [IsTallied, Progress.after, List.reverse_cons, tally_concat]
  exact congrArg (Measures.enter · _) h

/-- A round that failed adds its failure. -/
lemma failures_after {p : Progress μ} {d : Draw} {start : Vec2 Float} {a : Attempt μ}
    {failure : Failure} (hf : a.outcome = .failed failure) :
    (p.after d start a).measures.failures = p.measures.failures.record failure := by
  show a.outcome.failure?.elim _ p.measures.failures.record = _
  rw [hf]
  rfl

/-- A round that converged adds no failure. -/
lemma failures_after_of_converged {p : Progress μ} {d : Draw} {start : Vec2 Float} {a : Attempt μ}
    {q : Vec2 Float} {r : Float} (hq : a.outcome = .converged q r) :
    (p.after d start a).measures.failures = p.measures.failures := by
  show a.outcome.failure?.elim p.measures.failures _ = _
  rw [hq]
  rfl

/-- A failed round costs an iteration. -/
lemma totalIterations_after {p : Progress μ} {d : Draw} {start : Vec2 Float} {a : Attempt μ}
    {failure : Failure} (hf : a.outcome = .failed failure) :
    (p.after d start a).measures.totalIterations = p.measures.totalIterations + max a.steps 1 := by
  show _ + Measures.charge a.steps a.outcome.failure? = _
  rw [hf]
  rfl

/-- A round that converges costs its steps. -/
lemma totalIterations_after_of_converged {p : Progress μ} {d : Draw} {start : Vec2 Float}
    {a : Attempt μ} {q : Vec2 Float} {r : Float} (hq : a.outcome = .converged q r) :
    (p.after d start a).measures.totalIterations = p.measures.totalIterations + a.steps := by
  show _ + Measures.charge a.steps a.outcome.failure? = _
  rw [hq]
  rfl

end Progress

namespace Equations

variable {s : Equations Float μ} {c : Config}

/-- One round of a run: iterations are left, a start is drawn, and an attempt is made from it. -/
structure IsRound (s : Equations Float μ) (c : Config) (p : Progress μ) (d : Draw)
    (start : Vec2 Float) (a : Attempt μ) : Prop where
  unspent : p.measures.totalIterations < c.iterationsTotal.toNat
  draw : s.IsDraw c.lower c.upper (c.patience p.measures) p.generator d
  found : d.start = some start
  attempt : s.IsAttempt c.accuracy (c.allowance p.measures) start p.memory a

/-- The run that goes on from some progress. -/
inductive IsRun (s : Equations Float μ) (c : Config) : Progress μ → Run μ → Prop where
  | spent {p} (hs : c.iterationsTotal.toNat ≤ p.measures.totalIterations) :
    IsRun s c p (p.unsolved none)
  | givenUp {p d} (hu : p.measures.totalIterations < c.iterationsTotal.toNat)
      (hd : s.IsDraw c.lower c.upper (c.patience p.measures) p.generator d) (hn : d.start = none) :
    IsRun s c p ((p.giveUp d).unsolved (some d.refused))
  | solved {p d start a q r} (h : s.IsRound c p d start a) (ho : a.outcome = .converged q r) :
    IsRun s c p ((p.after d start a).solved q r)
  | again {p d start a failure run} (h : s.IsRound c p d start a)
      (ho : a.outcome = .failed failure) (hr : IsRun s c (p.after d start a) run) :
    IsRun s c p run

/-- One turn of the loop while iterations are left. -/
lemma runFrom_turn {p : Progress μ} (hu : p.measures.totalIterations < c.iterationsTotal.toNat)
    (turns : ℕ) :
    s.runFrom c (turns + 1) p =
      let d := s.drawStart c.lower c.upper (c.patience p.measures) p.generator
      match d.start with
      | none => (p.giveUp d).unsolved (some d.refused)
      | some start =>
        let a := s.attempt c.accuracy (c.allowance p.measures) start p.memory
        match a.outcome with
        | .converged q r => (p.after d start a).solved q r
        | .failed _ => s.runFrom c turns (p.after d start a) := by
  rw [runFrom]
  exact if_pos hu

/-- With turns for all iterations that are left, what `runFrom` computes has a derivation. -/
theorem isRun_runFrom (turns : ℕ) (p : Progress μ)
    (ht : c.iterationsTotal.toNat ≤ p.measures.totalIterations + turns) :
    IsRun s c p (s.runFrom c turns p) := by
  induction turns generalizing p with
  | zero => exact .spent ht
  | succ turns ih =>
    by_cases hu : p.measures.totalIterations < c.iterationsTotal.toNat
    · rw [runFrom_turn hu]
      have hd := isDraw_drawStart s c.lower c.upper (c.patience p.measures) p.generator
      generalize s.drawStart c.lower c.upper (c.patience p.measures) p.generator = d at hd
      cases hs : d.start with
      | none => simpa only [hs] using .givenUp hu hd hs
      | some start =>
        simp only [hs]
        have ha := isAttempt_attempt s c.accuracy (c.allowance p.measures) start p.memory
        generalize s.attempt c.accuracy (c.allowance p.measures) start p.memory = a at ha
        cases ho : a.outcome with
        | converged q r => exact .solved ⟨hu, hd, hs, ha⟩ ho
        | failed failure =>
          refine .again ⟨hu, hd, hs, ha⟩ ho (ih _ ?_)
          -- The round was charged an iteration, so one turn less covers those that are left.
          rw [Progress.totalIterations_after ho]
          omega
    · rw [runFrom, if_neg hu]
      exact .spent (not_lt.mp hu)

/-- What `run` computes has a derivation. -/
theorem isRun_run (s : Equations Float μ) (c : Config) (g : Generator) (m : μ) :
    IsRun s c { generator := g, memory := m } (s.run c g m) :=
  isRun_runFrom _ _ (Nat.le_add_left _ _)

namespace IsRun

/-- With turns for all iterations that are left, `runFrom` computes the run with a derivation. -/
lemma runFrom_eq {p : Progress μ} {run : Run μ} (h : IsRun s c p run) {turns : ℕ}
    (ht : c.iterationsTotal.toNat ≤ p.measures.totalIterations + turns) :
    s.runFrom c turns p = run := by
  induction h generalizing turns with
  | spent hs =>
    cases turns with
    | zero => rfl
    | succ turns =>
      rw [runFrom]
      exact if_neg hs.not_gt
  | givenUp hu hd hn =>
    -- Iterations are left, so there is a turn for them.
    obtain ⟨turns, rfl⟩ : ∃ n, turns = n + 1 := ⟨turns - 1, by omega⟩
    rw [runFrom_turn hu, hd.eq]
    simp only [hn]
  | solved h ho =>
    have hu := h.unspent
    obtain ⟨turns, rfl⟩ : ∃ n, turns = n + 1 := ⟨turns - 1, by omega⟩
    rw [runFrom_turn hu, h.draw.eq]
    simp only [h.found, h.attempt.eq, ho]
  | again h ho hr ih =>
    have hu := h.unspent
    obtain ⟨turns, rfl⟩ : ∃ n, turns = n + 1 := ⟨turns - 1, by omega⟩
    rw [runFrom_turn hu, h.draw.eq]
    simp only [h.found, h.attempt.eq, ho]
    apply ih
    rw [Progress.totalIterations_after ho]
    omega

/-- A run with a derivation from the beginning is the one that `run` computes. -/
theorem eq {g : Generator} {m : μ} {run : Run μ}
    (h : IsRun s c { generator := g, memory := m } run) : s.run c g m = run :=
  h.runFrom_eq (Nat.le_add_left _ _)

/-- What a run evaluates is what the system answers at its points, in order. -/
lemma replay {p : Progress μ} {run : Run μ} (h : IsRun s c p run) :
    ∃ visits, run.visits = p.visits ++ visits ∧
      s.replay (visits.map (·.point)) p.memory = (visits, run.memory) := by
  induction h with
  | spent | givenUp => exact ⟨[], (List.append_nil _).symm, rfl⟩
  | @solved p d start a q r h ho =>
    exact ⟨a.visits, p.visits_after d start a, h.attempt.replay⟩
  | @again p d start a failure run h ho hr ih =>
    obtain ⟨visits, hv, hm⟩ := ih
    refine ⟨a.visits ++ visits, ?_, ?_⟩
    · rw [hv, p.visits_after, List.append_assoc]
    · change s.replay _ a.memory = _ at hm
      rw [List.map_append, replay_append, h.attempt.replay, hm]

/-- The rounds made before are the first rounds of a run. -/
lemma rounds_prefix {p : Progress μ} {run : Run μ} (h : IsRun s c p run) :
    p.rounds.reverse <+: run.rounds := by
  induction h with
  | spent | givenUp => exact List.prefix_refl _
  | @solved p d start a => exact p.rounds_prefix_after d start a
  | @again p d start a _ _ _ _ _ ih => exact (p.rounds_prefix_after d start a).trans ih

/-- What every round does, the rounds of a run do. -/
lemma forall_rounds {P : Round → Prop} {p : Progress μ} {run : Run μ}
    (hP : ∀ {p d start} {a : Attempt μ}, s.IsRound c p d start a → P (d.round start a))
    (h : IsRun s c p run) (hp : ∀ r ∈ p.rounds, P r) : ∀ r ∈ run.rounds, P r := by
  have hafter {p d start a} (h : s.IsRound c p d start a) (hp : ∀ r ∈ p.rounds, P r) :
      ∀ r ∈ (p.after d start a).rounds, P r :=
    List.forall_mem_cons.mpr ⟨hP h, hp⟩
  induction h with
  | spent | givenUp => exact fun r hr => hp r (List.mem_reverse.mp hr)
  | solved h => exact fun r hr => hafter h hp r (List.mem_reverse.mp hr)
  | again h _ _ ih => exact ih (hafter h hp)

/-- A run that finds no solution says so, with the attempts and iterations of its measures. -/
lemma result_of_error {p : Progress μ} {run : Run μ} {e : Error} (h : IsRun s c p run)
    (he : run.result = .error e) :
    e = .noSolution run.measures.attempts run.measures.totalIterations := by
  induction h with
  | spent | givenUp =>
    cases he
    rfl
  | solved => cases he
  | again _ _ _ ih => exact ih he

/-- The measures of a run without a solution are its ledger. -/
lemma measures_of_error {p : Progress μ} {run : Run μ} {e : Error} (h : IsRun s c p run)
    (hp : p.IsTallied) (he : run.result = .error e) : run.measures = run.ledger := by
  induction h with
  | spent => exact hp
  | @givenUp p d hu hd hn =>
    exact congrArg (fun m => (Measures.refuse m d.refused.length).recordGiveUp) hp
  | solved => cases he
  | again h ho hr ih => exact ih (hp.after _ _ _) he

/-- The measures of a run with a solution are its ledger, with the residual put in. -/
lemma measures_of_ok {p : Progress μ} {run : Run μ} {q : Vec2 Float} (h : IsRun s c p run)
    (hp : p.IsTallied) (hq : run.result = .ok q) :
    run.givenUp = none ∧ ∃ r, run.measures = { run.ledger with residual := some r } := by
  induction h with
  | spent | givenUp => cases hq
  | @solved p d start a q r h ho =>
    exact ⟨rfl, r, congrArg (fun m => { m with residual := some r }) (hp.after d start a)⟩
  | again h ho hr ih => exact ih (hp.after _ _ _) hq

/-- The measures of a run are its ledger, apart from the residual. -/
lemma exists_measures_eq {p : Progress μ} {run : Run μ} (h : IsRun s c p run) (hp : p.IsTallied) :
    ∃ r, run.measures = { run.ledger with residual := r } := by
  cases hq : run.result with
  | error e => exact ⟨_, h.measures_of_error hp hq⟩
  | ok q =>
    obtain ⟨-, r, hr⟩ := h.measures_of_ok hp hq
    exact ⟨some r, hr⟩

end IsRun

end Equations

end PlanarNewton
