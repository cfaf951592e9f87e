import PlanarNewton.Proofs.Plane.Values
import PlanarNewton.Proofs.Solver.Solve

/-!
# Systems that are evaluated alike

Two systems are alike if, at each point, they have the same memory and verdicts, objectives that are
finite together and of one length, and Newton steps of one value (`Equations.Alike`). They make the same
runs (`IsRun.alike`): the same points are drawn, the same points are visited bit for bit, and all ends
alike. What carries the simulation is that no coordinate of a visited point is a negative zero, so the
sign of a zero step is lost when the step is added (`advance_alike`). The main statement is
`Solver.solves_withSystem`, for any number of solves in a row.
-/

namespace PlanarNewton
open Binary64

variable {μ : Type}

/-- Evaluations that an attempt treats alike. -/
structure Evaluation.Alike (e e' : Evaluation Float) : Prop where
  isFinite : e'.objective.isFinite = e.objective.isFinite
  norm : e'.objective.norm = e.objective.norm
  step : e'.step.map (Vec2.map value) = e.step.map (Vec2.map value)

/-- A point without negative zeros. -/
structure Vec2.IsProper (p : Vec2 Float) : Prop where
  x : p.x ≠ -0.0
  y : p.y ≠ -0.0

namespace Vec2.IsProper

variable {p : Vec2 Float}

/-- Proper coordinates stay so when something is added. -/
lemma add (h : p.IsProper) (v : Vec2 Float) : (p + v).IsProper where
  x h0 := h.x (add_eq_negZero h0).1
  y h0 := h.y (add_eq_negZero h0).1

/-- The sign of a zero step is lost. -/
lemma add_congr {v v' : Vec2 Float} (h : p.IsProper) (hv : v'.map value = v.map value) :
    p + v' = p + v := by
  obtain ⟨hx, hy⟩ := Vec2.mk.inj hv
  show Vec2.mk (p.x + v'.x) (p.y + v'.y) = _
  rw [Binary64.add_congr h.x hx, Binary64.add_congr h.y hy]
  rfl

end Vec2.IsProper

/-- Attempts that differ only in what was found at the points. -/
structure Attempt.Alike (a a' : Attempt μ) : Prop where
  points : a'.visits.map (·.point) = a.visits.map (·.point)
  steps : a'.steps = a.steps
  outcome : a'.outcome = a.outcome
  memory : a'.memory = a.memory

/-- Attempts stay alike with one more visit to the same point. -/
lemma Attempt.Alike.after {a a' : Attempt μ} (h : a.Alike a') (p : Vec2 Float)
    (e e' : Evaluation Float) : (a.after ⟨p, e⟩).Alike (a'.after ⟨p, e'⟩) where
  points := congrArg (p :: ·) h.points
  steps := congrArg Nat.succ h.steps
  outcome := h.outcome
  memory := h.memory

namespace Equations

/-- Systems that are evaluated alike, with the same memory and the same constraints. -/
structure Alike (s s' : Equations Float μ) : Prop where
  evaluate : ∀ p m, (s.evaluate p m).1.Alike (s'.evaluate p m).1
  memory : ∀ p m, (s'.evaluate p m).2 = (s.evaluate p m).2
  accepts : ∀ p, s'.accepts p = s.accepts p

variable {s s' : Equations Float μ} {accuracy : Float}

/-- Systems that are alike are evaluated alike, with the same memory. -/
lemma Alike.exists_evaluate (hs : s.Alike s') {p m e m'} (he : s.evaluate p m = (e, m')) :
    ∃ e', s'.evaluate p m = (e', m') ∧ e.Alike e' := by
  have h := hs.evaluate p m
  have hm := hs.memory p m
  rw [he] at h hm
  exact ⟨_, Prod.ext rfl hm, h⟩

/-- From a point without negative zeros, alike evaluations lead to the same next point. -/
lemma advance_alike (hs : s.Alike s') {p : Vec2 Float} (hp : p.IsProper)
    {e e' : Evaluation Float} (he : e.Alike e') : s'.advance ⟨p, e'⟩ = s.advance ⟨p, e⟩ := by
  have h := he.step
  unfold advance
  cases hv : e.step with
  | none =>
    rw [hv] at h
    rw [Option.map_eq_none_iff.mp h]
  | some v =>
    rw [hv] at h
    -- The steps may differ in the sign of a zero, but not what they lead to.
    obtain ⟨v', hv', hvv⟩ := Option.map_eq_some_iff.mp h
    simp only [hv', hp.add_congr hvv, hs.accepts]

/-- The next point of a proper one is proper. -/
lemma isProper_of_advance {v : Visit} {next : Vec2 Float} (hp : v.point.IsProper)
    (h : s.advance v = .ok next) : next.IsProper := by
  obtain ⟨step, -, rfl, -⟩ := advance_ok h
  exact hp.add step

/-- Evaluations that are alike are open alike. -/
lemma IsOpen_alike {e e' : Evaluation Float} (he : e.Alike e') (h : e.IsOpen accuracy) :
    e'.IsOpen accuracy :=
  ⟨he.isFinite.trans h.isFinite, he.norm ▸ h.not_lt⟩

/-- Alike systems make alike attempts. -/
theorem IsAttempt.alike (hs : s.Alike s') {left p m} {a : Attempt μ}
    (h : IsAttempt s accuracy left p m a) (hp : p.IsProper) :
    ∃ a', IsAttempt s' accuracy left p m a' ∧ a.Alike a' := by
  induction h with
  | nonFinite he hf =>
    obtain ⟨e', he', h⟩ := hs.exists_evaluate he
    exact ⟨_, .nonFinite he' (h.isFinite.trans hf), rfl, rfl, rfl, rfl⟩
  | @converged left p m e m' he hf hr =>
    obtain ⟨e', he', h⟩ := hs.exists_evaluate he
    refine ⟨_, .converged he' (h.isFinite.trans hf) (h.norm ▸ hr), rfl, rfl, ?_, rfl⟩
    exact congrArg (Outcome.converged p) h.norm
  | exhausted he ho =>
    obtain ⟨e', he', h⟩ := hs.exists_evaluate he
    exact ⟨_, .exhausted he' (IsOpen_alike h ho), rfl, rfl, rfl, rfl⟩
  | stuck he ho ha =>
    obtain ⟨e', he', h⟩ := hs.exists_evaluate he
    have ha' := (advance_alike hs hp h).trans ha
    exact ⟨_, .stuck he' (IsOpen_alike h ho) ha', rfl, rfl, rfl, rfl⟩
  | step he ho ha _ ih =>
    obtain ⟨e', he', h⟩ := hs.exists_evaluate he
    have ha' := (advance_alike hs hp h).trans ha
    obtain ⟨a', hi, hal⟩ := ih (isProper_of_advance hp ha)
    exact ⟨_, .step he' (IsOpen_alike h ho) ha' hi, hal.after _ _ _⟩

/-- Systems with the same constraints draw the same starts. -/
lemma IsDraw.alike (hs : s.Alike s') {lower upper patience g d}
    (h : IsDraw s lower upper patience g d) : IsDraw s' lower upper patience g d := by
  induction h with
  | spent => exact .spent
  | accepted hp hc => exact .accepted hp ((hs.accepts _).trans hc)
  | refused hp hc _ ih => exact .refused hp ((hs.accepts _).trans hc) ih

end Equations

/-- A round without what was found at its points. -/
structure Round.Outline where
  refused : List (Vec2 Float)
  start : Vec2 Float
  points : List (Vec2 Float)
  steps : ℕ
  outcome : Outcome

/-- A round without what was evaluated in it. -/
def Round.outline (r : Round) : Round.Outline :=
  ⟨r.refused, r.start, r.visits.map (·.point), r.steps, r.outcome⟩

/-- Attempts that are alike make rounds of the same outline. -/
lemma Attempt.Alike.outline_round {a a' : Attempt μ} (h : a.Alike a') (d : Draw)
    (start : Vec2 Float) : (d.round start a').outline = (d.round start a).outline := by
  show Round.Outline.mk d.refused start (a'.visits.map _) a'.steps a'.outcome =
    Round.Outline.mk d.refused start (a.visits.map _) a.steps a.outcome
  rw [h.points, h.steps, h.outcome]

/-- Progress with the same outline. -/
structure Progress.Alike (p p' : Progress μ) : Prop where
  measures : p'.measures = p.measures
  generator : p'.generator = p.generator
  memory : p'.memory = p.memory
  rounds : p'.rounds.map (·.outline) = p.rounds.map (·.outline)

/-- Progresses stay alike when alike attempts are added. -/
lemma Progress.Alike.after {p p' : Progress μ} (h : p.Alike p') {a a' : Attempt μ}
    (ha : a.Alike a') (d : Draw) (start : Vec2 Float) :
    (p.after d start a).Alike (p'.after d start a') where
  measures := by
    show p'.measures.enter _ = p.measures.enter _
    rw [h.measures, Measures.enter, Measures.enter]
    show Measures.record _ a'.steps a'.outcome.failure? = Measures.record _ _ _
    rw [ha.steps, ha.outcome]
    rfl
  generator := rfl
  memory := ha.memory
  rounds := congrArg₂ List.cons (ha.outline_round d start) h.rounds

/-- Runs with the same outline. -/
structure Run.Alike (run run' : Run μ) : Prop where
  result : run'.result = run.result
  measures : run'.measures = run.measures
  generator : run'.generator = run.generator
  memory : run'.memory = run.memory
  rounds : run'.rounds.map (·.outline) = run.rounds.map (·.outline)
  givenUp : run'.givenUp = run.givenUp

/-- Progresses that are alike end alike without a solution. -/
lemma Progress.Alike.unsolved {p p' : Progress μ} (h : p.Alike p')
    (givenUp : Option (List (Vec2 Float))) : (p.unsolved givenUp).Alike (p'.unsolved givenUp) where
  result := by
    show Except.error _ = Except.error _
    rw [h.measures]
  measures := h.measures
  generator := h.generator
  memory := h.memory
  rounds := by
    show p'.rounds.reverse.map _ = p.rounds.reverse.map _
    rw [List.map_reverse, h.rounds, List.map_reverse]
  givenUp := rfl

/-- Progresses that are alike end alike with a solution. -/
lemma Progress.Alike.solved {p p' : Progress μ} (h : p.Alike p') (q : Vec2 Float) (r : Float) :
    (p.solved q r).Alike (p'.solved q r) where
  result := rfl
  measures := congrArg (fun m => { m with residual := some r }) h.measures
  generator := h.generator
  memory := h.memory
  rounds := (h.unsolved none).rounds
  givenUp := rfl

/-- Progresses that are alike stay so when sampling is given up. -/
lemma Progress.Alike.giveUp {p p' : Progress μ} (h : p.Alike p') (d : Draw) :
    (p.giveUp d).Alike (p'.giveUp d) where
  measures := by
    show (p'.measures.refuse _).recordGiveUp = (p.measures.refuse _).recordGiveUp
    rw [h.measures]
  generator := rfl
  memory := h.memory
  rounds := h.rounds

namespace Equations

variable {s s' : Equations Float μ} {c : Config}

/-- A round has one that is alike on a system that is alike. -/
lemma IsRound.alike (hs : s.Alike s') (hr : Config.checkSearchRange c.lower c.upper = .ok ())
    {p p' : Progress μ} {d : Draw} {start : Vec2 Float} {a : Attempt μ}
    (h : s.IsRound c p d start a) (hp : p.Alike p') :
    ∃ a', s'.IsRound c p' d start a' ∧ a.Alike a' := by
  -- The start is a point of the generator, which makes no negative zeros.
  obtain ⟨-, g, rfl⟩ := h.draw.start_spec h.found
  obtain ⟨hx, hy⟩ := g.point_ne_negZero hr
  obtain ⟨a', ha, hal⟩ := h.attempt.alike hs ⟨hx, hy⟩
  refine ⟨a', ⟨?_, ?_, h.found, ?_⟩, hal⟩
  · rw [hp.measures]
    exact h.unspent
  · rw [hp.measures, hp.generator]
    exact h.draw.alike hs
  · rw [hp.measures, hp.memory]
    exact ha

/-- Alike systems make alike runs. -/
theorem IsRun.alike (hs : s.Alike s') (hr : Config.checkSearchRange c.lower c.upper = .ok ())
    {p p' : Progress μ} {run : Run μ} (h : IsRun s c p run) (hp : p.Alike p') :
    ∃ run', IsRun s' c p' run' ∧ run.Alike run' := by
  induction h generalizing p' with
  | spent hspent => exact ⟨_, .spent (hp.measures ▸ hspent), hp.unsolved none⟩
  | @givenUp p d hu hd hn =>
    refine ⟨_, .givenUp (hp.measures ▸ hu) ?_ hn, (hp.giveUp d).unsolved _⟩
    rw [hp.measures, hp.generator]
    exact hd.alike hs
  | @solved p d start a q r h ho =>
    obtain ⟨a', h', ha⟩ := h.alike hs hr hp
    exact ⟨_, .solved h' (ha.outcome.trans ho), (hp.after ha d start).solved q r⟩
  | @again p d start a failure run h ho _ ih =>
    obtain ⟨a', h', ha⟩ := h.alike hs hr hp
    obtain ⟨run', hrun, hal⟩ := ih (hp.after ha d start)
    exact ⟨run', .again h' (ha.outcome.trans ho) hrun, hal⟩

end Equations

/-- What a solve shows of itself, apart from what was found at the visited points. -/
structure Solved.Outline (μ : Type) where
  result : Except Error (Vec2 Float)
  measures : Option Measures
  generator : Generator
  memory : μ
  candidates : Option (List (Vec2 Float))
  rounds : Option (List Round.Outline)

/-- A solve without its logging and what was evaluated in it. -/
def Solved.outline (s : Solved μ) : Solved.Outline μ where
  result := s.result
  measures := s.solver.measures
  generator := s.solver.generator
  memory := s.solver.memory
  candidates := s.run.map (·.candidates)
  rounds := s.run.map (·.rounds.map (·.outline))

/-- Runs that are alike draw the same points. -/
lemma Run.Alike.candidates {run run' : Run μ} (h : run.Alike run') :
    run'.candidates = run.candidates := by
  have hrounds := congrArg (List.flatMap fun o : Round.Outline => o.refused ++ [o.start]) h.rounds
  rw [List.flatMap_map, List.flatMap_map] at hrounds
  rw [Run.candidates, Run.candidates, h.givenUp]
  exact congrArg (· ++ _) hrounds

namespace Solver

/-- The solver with another system. -/
def withSystem (s : Solver μ) (t : Equations Float μ) : Solver μ :=
  { s with system := t }

/-- With a system that is evaluated alike, a solver solves alike, whatever was logged before. -/
theorem solve_withSystem {s : Solver μ} {t : Equations Float μ} (h : s.system.Alike t)
    (log log' : Logging) :
    ((s.withSystem t).solve log').outline = (s.solve log).outline ∧
      ((s.withSystem t).solve log').solver = (s.solve log).solver.withSystem t := by
  cases hv : s.config.validate with
  | error e =>
    have hv' : (s.withSystem t).config.validate = .error e := hv
    rw [solve_of_refused hv, solve_of_refused hv']
    exact ⟨rfl, rfl⟩
  | ok =>
    have hc := Config.validate_iff.mp hv
    have hc' : (s.withSystem t).config.IsValid := hc
    obtain ⟨run, hrun, ha⟩ := s.isRun.alike h hc.range ⟨rfl, rfl, rfl, rfl⟩
    have heq : (s.withSystem t).run = run := hrun.eq
    rw [solve_of_isValid hc, solve_of_isValid hc', heq]
    constructor
    · show Solved.Outline.mk run.result (some run.measures) run.generator run.memory
          (some run.candidates) (some (run.rounds.map _)) = Solved.Outline.mk s.run.result
          (some s.run.measures) s.run.generator s.run.memory (some s.run.candidates)
          (some (s.run.rounds.map _))
      rw [ha.result, ha.measures, ha.generator, ha.memory, ha.candidates, ha.rounds]
    · show Solver.mk t run.memory s.config run.generator (some run.measures) =
        Solver.mk t s.run.memory s.config s.run.generator (some s.run.measures)
      rw [ha.memory, ha.generator, ha.measures]

/-- So many solves in a row. -/
def solves : ℕ → Solver μ → Logging → List (Solved μ)
  | 0, _, _ => []
  | n + 1, s, log => s.solve log :: solves n (s.solve log).solver (s.solve log).logging

/-- With a system that is evaluated alike, a solver solves alike again and again. -/
theorem solves_withSystem {s : Solver μ} {t : Equations Float μ} (h : s.system.Alike t) (n : ℕ)
    (log log' : Logging) :
    (solves n (s.withSystem t) log').map (·.outline) = (solves n s log).map (·.outline) := by
  induction n generalizing s log log' with
  | zero => rfl
  | succ n ih =>
    -- The solver after one solve differs in its system only, so the next solve is alike again.
    obtain ⟨ho, hs⟩ := solve_withSystem h log log'
    rw [solves, solves, List.map_cons, List.map_cons, ho, hs]
    exact congrArg _ (ih (s.system_solve log ▸ h) _ _)

end Solver

end PlanarNewton
