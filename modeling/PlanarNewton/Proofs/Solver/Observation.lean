import PlanarNewton.Proofs.Solver.Simulation
import PlanarNewton.Proofs.Solver.Stream

/-!
# What a run sees of its system

A run evaluates its system at the points that it visits, and asks for the verdict of the constraints on
the points that it tests: the candidates for a start, and the finite points that steps lead to
(`Run.tested`). It sees nothing else. So a system that answers the same there makes the same run, in
whatever memory it keeps its own state (`IsRun.observe`), and this goes on from solve to solve
(`Solver.solves_onto`). Systems that only arrange their constraints in another way, or that give the same
two objectives in another form, answer the same everywhere (`Solver.solves_observed`).
-/

namespace PlanarNewton

variable {μ ν : Type}

/-- The point that the step from a visit leads to, if it is finite. -/
def Visit.target? (v : Visit) : Option (Vec2 Float) :=
  (v.evaluation.step.map (v.point + ·)).filter (·.isFinite)

/-- The finite points that so many steps led to, one from each visit, in order. -/
def Visit.targets (visits : List Visit) (steps : ℕ) : List (Vec2 Float) :=
  (visits.take steps).filterMap (·.target?)

namespace Attempt

/-- The points of an attempt on which the constraints were asked, in order. -/
def tested (a : Attempt μ) : List (Vec2 Float) :=
  Visit.targets a.visits a.steps

/-- The attempt with another memory at its end. -/
def withMemory (a : Attempt μ) (m : ν) : Attempt ν :=
  ⟨a.visits, a.steps, a.outcome, m⟩

/-- The points tested with one more visit are its target and those tested before. -/
lemma mem_tested_after {a : Attempt μ} {v : Visit} {q : Vec2 Float} :
    q ∈ (a.after v).tested ↔ v.target? = some q ∨ q ∈ a.tested := by
  simp only [tested, Visit.targets, after, List.take_succ_cons, List.mem_filterMap, List.mem_cons,
    exists_eq_or_imp]

end Attempt

/-- The points of a round on which the constraints were asked, in order. -/
def Round.tested (r : Round) : List (Vec2 Float) :=
  r.refused ++ r.start :: Visit.targets r.visits r.steps

/-- A round tests the candidates of its draw, and what its attempt tests. -/
lemma Draw.tested_round {d : Draw} {start : Vec2 Float} (h : d.start = some start) (a : Attempt μ) :
    (d.round start a).tested = d.candidates ++ a.tested := by
  rw [candidates, h, List.append_assoc]
  rfl

namespace Run

/-- The points of a run on which the constraints were asked, in order. -/
def tested (run : Run μ) : List (Vec2 Float) :=
  run.rounds.flatMap (·.tested) ++ run.givenUp.getD []

/-- The run with another memory at its end. -/
def withMemory (run : Run μ) (m : ν) : Run ν :=
  ⟨run.result, run.measures, run.generator, m, run.rounds, run.givenUp⟩

/-- What is tested in a round is tested in the run. -/
lemma mem_tested_of_mem_rounds {run : Run μ} {r : Round} {q : Vec2 Float} (hr : r ∈ run.rounds)
    (hq : q ∈ r.tested) : q ∈ run.tested :=
  List.mem_append_left _ (List.mem_flatMap.mpr ⟨r, hr, hq⟩)

end Run

/-- The progress with another memory. -/
def Progress.withMemory (p : Progress μ) (m : ν) : Progress ν :=
  ⟨p.measures, p.generator, m, p.rounds⟩

namespace Equations

/-- From a memory, the system makes these visits, and it leaves another memory. -/
def Answers (t : Equations Float ν) (m : ν) (visits : List Visit) (m' : ν) : Prop :=
  t.replay (visits.map (·.point)) m = (visits, m')

section Answers

variable {t : Equations Float ν} {m m' : ν}

/-- No visits are answered with the memory left as it is. -/
lemma answers_nil : t.Answers m [] m' ↔ m = m' := by
  simp [Answers, replay]

/-- Visits are answered one after another. -/
lemma answers_cons {p : Vec2 Float} {e : Evaluation Float} {visits : List Visit} :
    t.Answers m (⟨p, e⟩ :: visits) m' ↔
      ∃ m₁, t.evaluate p m = (e, m₁) ∧ t.Answers m₁ visits m' := by
  obtain ⟨e₁, m₁, he⟩ : ∃ e₁ m₁, t.evaluate p m = (e₁, m₁) := ⟨_, _, rfl⟩
  rw [Answers, List.map_cons, replay_cons he]
  constructor
  · intro h
    obtain ⟨hv, hm⟩ := Prod.mk.inj h
    obtain ⟨hp, hvs⟩ := List.cons.inj hv
    obtain ⟨-, rfl⟩ := Visit.mk.inj hp
    exact ⟨m₁, he, Prod.ext hvs hm⟩
  · rintro ⟨_, he', h⟩
    obtain ⟨rfl, rfl⟩ := Prod.mk.inj (he.symm.trans he')
    rw [h]

/-- Visits in two parts are answered together. -/
lemma answers_append {visits visits' : List Visit} :
    t.Answers m (visits ++ visits') m' ↔
      ∃ m₁, t.Answers m visits m₁ ∧ t.Answers m₁ visits' m' := by
  induction visits generalizing m with
  | nil => simp only [List.nil_append, answers_nil, exists_eq_left']
  | cons v visits ih =>
    obtain ⟨p, e⟩ := v
    rw [List.cons_append, answers_cons]
    simp only [answers_cons, ih]
    constructor
    · rintro ⟨m₁, he, m₂, h, h'⟩
      exact ⟨m₂, ⟨m₁, he, h⟩, h'⟩
    · rintro ⟨m₂, ⟨m₁, he, h⟩, h'⟩
      exact ⟨m₁, he, m₂, h, h'⟩

end Answers

variable {s : Equations Float μ} {t : Equations Float ν} {accuracy : Float} {c : Config}

/-- Memories that are related stay so, and as long as they are the systems find the same. -/
lemma replay_related {R : μ → ν → Prop} {points : List (Vec2 Float)}
    (he : ∀ p ∈ points, ∀ m n, R m n → (t.evaluate p n).1 = (s.evaluate p m).1 ∧
      R (s.evaluate p m).2 (t.evaluate p n).2)
    {m : μ} {n : ν} (hR : R m n) : (t.replay points n).1 = (s.replay points m).1 := by
  induction points generalizing m n with
  | nil => rfl
  | cons p points ih =>
    obtain ⟨hp, hR'⟩ := he p List.mem_cons_self m n hR
    rw [replay_cons rfl, replay_cons rfl, hp, ih (fun q hq => he q (List.mem_cons_of_mem _ hq)) hR']

/-- The forms of a system that give two objectives, with their derivatives estimated over a step. -/
inductive IsEstimated (step : Float) (f g : Vec2 Float → Float) : Equations Float μ → Prop where
  | objectives : IsEstimated step f g (ofObjectives step f g)
  | derivatives : IsEstimated step f g (ofDerivatives f g
      (centralDifference .x step f) (centralDifference .y step f)
      (centralDifference .x step g) (centralDifference .y step g))
  | combined {function} (h : ∀ p m, (function p m).1 = ⟨⟨f p, g p⟩,
      ⟨centralDifference .x step f p, centralDifference .y step f p,
        centralDifference .x step g p, centralDifference .y step g p⟩⟩) :
    IsEstimated step f g (ofCombined function)
  | constrain {u constraint} (h : IsEstimated step f g u) :
    IsEstimated step f g (u.constrain constraint)

/-- The evaluation of an estimated system consists of its objectives and their difference
quotients. -/
lemma IsEstimated.evaluate_eq {step : Float} {f g : Vec2 Float → Float}
    (h : t.IsEstimated step f g) (p : Vec2 Float) (n : ν) : (t.evaluate p n).1 = ⟨⟨f p, g p⟩,
      ⟨centralDifference .x step f p, centralDifference .y step f p,
        centralDifference .x step g p, centralDifference .y step g p⟩⟩ := by
  induction h with
  | objectives | derivatives => rfl
  | combined h => exact h p n
  | constrain _ ih => exact ih

/-- A step asks the constraints about its target only. -/
lemma advance_congr {v : Visit} (hc : ∀ q, v.target? = some q → t.accepts q = s.accepts q) :
    t.advance v = s.advance v := by
  unfold advance
  cases hs : v.evaluation.step with
  | none => rfl
  | some step =>
    cases hf : (v.point + step).isFinite with
    | false => simp only [hf, Bool.not_false, if_true]
    | true =>
      have htarget : v.target? = some (v.point + step) := by
        rw [Visit.target?, hs, Option.map_some, Option.filter_some, if_pos hf]
      simp only [hc _ htarget]

/-- A system that answers the same at the points of an attempt makes the same attempt. -/
theorem IsAttempt.observe {left p m} {a : Attempt μ} (h : IsAttempt s accuracy left p m a)
    {n n' : ν} (ha : t.Answers n a.visits n') (hc : ∀ q ∈ a.tested, t.accepts q = s.accepts q) :
    IsAttempt t accuracy left p n (a.withMemory n') := by
  induction h generalizing n with
  | nonFinite he hf =>
    obtain ⟨_, he', hn⟩ := answers_cons.mp ha
    exact .nonFinite (answers_nil.mp hn ▸ he') hf
  | converged he hf hr =>
    obtain ⟨_, he', hn⟩ := answers_cons.mp ha
    exact .converged (answers_nil.mp hn ▸ he') hf hr
  | exhausted he ho =>
    obtain ⟨_, he', hn⟩ := answers_cons.mp ha
    exact .exhausted (answers_nil.mp hn ▸ he') ho
  | @stuck left p m e m' failure he ho hstuck =>
    obtain ⟨_, he', hn⟩ := answers_cons.mp ha
    have htarget : ∀ q, (Visit.mk p e).target? = some q → t.accepts q = s.accepts q :=
      fun q hq => hc q (List.mem_filterMap.mpr ⟨_, List.mem_cons_self, hq⟩)
    exact .stuck (answers_nil.mp hn ▸ he') ho ((advance_congr htarget).trans hstuck)
  | step he ho hnext _ ih =>
    obtain ⟨_, he', ha⟩ := answers_cons.mp ha
    have hnext' := (advance_congr fun q hq => hc q (Attempt.mem_tested_after.mpr (.inl hq))).trans
      hnext
    exact .step he' ho hnext' (ih ha fun q hq => hc q (Attempt.mem_tested_after.mpr (.inr hq)))

/-- A draw asks the constraints about its candidates only. -/
lemma IsDraw.observe {lower upper : Vec2 Float} {patience g d}
    (h : IsDraw s lower upper patience g d)
    (hc : ∀ q ∈ d.candidates, t.accepts q = s.accepts q) : IsDraw t lower upper patience g d := by
  induction h with
  | spent => exact .spent
  | accepted hp ha => exact .accepted hp ((hc _ List.mem_cons_self).trans ha)
  | refused hp hr _ ih =>
    refine .refused hp ((hc _ List.mem_cons_self).trans hr) ?_
    exact ih fun q hq => hc q (List.mem_cons_of_mem _ hq)

/-- A round is observed on a system that answers its visits and accepts the same tested points. -/
lemma IsRound.observe {p : Progress μ} {d : Draw} {start : Vec2 Float} {a : Attempt μ}
    (h : s.IsRound c p d start a) {n n' : ν} (ha : t.Answers n a.visits n')
    (hc : ∀ q ∈ (d.round start a).tested, t.accepts q = s.accepts q) :
    t.IsRound c (p.withMemory n) d start (a.withMemory n') := by
  rw [Draw.tested_round h.found] at hc
  have hdraw := h.draw.observe fun q hq => hc q (List.mem_append_left _ hq)
  have hattempt := h.attempt.observe ha fun q hq => hc q (List.mem_append_right _ hq)
  exact ⟨h.unspent, hdraw, h.found, hattempt⟩

/-- A system that answers the same at the points of a run makes the same run. -/
theorem IsRun.observe {p : Progress μ} {run : Run μ} (h : s.IsRun c p run) {visits : List Visit}
    {n n' : ν} (hv : run.visits = p.visits ++ visits) (ha : t.Answers n visits n')
    (hc : ∀ q ∈ run.tested, t.accepts q = s.accepts q) :
    t.IsRun c (p.withMemory n) (run.withMemory n') := by
  induction h generalizing visits n with
  | @spent p hs =>
    obtain rfl := List.self_eq_append_right.mp hv
    obtain rfl := answers_nil.mp ha
    exact .spent hs
  | @givenUp p d hu hd hn =>
    obtain rfl := List.self_eq_append_right.mp hv
    obtain rfl := answers_nil.mp ha
    refine .givenUp hu (hd.observe fun q hq => hc q ?_) hn
    rw [Draw.candidates, hn, Option.toList_none, List.append_nil] at hq
    exact List.mem_append_right _ hq
  | @solved p d start a q r h ho =>
    -- The visits added are those of the last attempt.
    obtain rfl := List.append_cancel_left ((p.visits_after d start a).symm.trans hv)
    have hmem : d.round start a ∈ ((p.after d start a).solved q r).rounds :=
      List.mem_reverse.mpr List.mem_cons_self
    exact .solved (h.observe ha fun q hq => hc q (Run.mem_tested_of_mem_rounds hmem hq)) ho
  | @again p d start a failure run h ho hr ih =>
    -- The visits added are those of this attempt and those of what follows.
    obtain ⟨visits', hv', -⟩ := hr.replay
    have hsplit := hv'.symm.trans hv
    rw [p.visits_after, List.append_assoc] at hsplit
    obtain rfl := List.append_cancel_left hsplit
    obtain ⟨n₁, ha, ha'⟩ := answers_append.mp ha
    have hmem : d.round start a ∈ run.rounds :=
      hr.rounds_prefix.subset (List.mem_reverse.mpr List.mem_cons_self)
    refine .again (h.observe ha fun q hq => hc q (Run.mem_tested_of_mem_rounds hmem hq)) ho ?_
    exact ih hv' ha' hc

end Equations

namespace Solved

/-- The points of a solve on which the constraints were asked, in order. -/
def tested (r : Solved μ) : List (Vec2 Float) :=
  r.run.elim [] (·.tested)

/-- What a solve shows of itself, the memory of the system apart. -/
structure Report where
  result : Except Error (Vec2 Float)
  measures : Option Measures
  generator : Generator
  run : Option (Run Unit)

/-- What a solve reports: its result, the measures, the generator, and the run without its memory.
-/
def report (r : Solved μ) : Report :=
  ⟨r.result, r.solver.measures, r.solver.generator, r.run.map (·.withMemory ())⟩

end Solved

namespace Solver

/-- The solver put onto another system, with a memory of that. -/
def onto (s : Solver μ) (t : Equations Float ν) (m : ν) : Solver ν :=
  ⟨t, m, s.config, s.generator, s.measures⟩

variable {s : Solver μ} {t : Equations Float ν} {m m' : ν} {log : Logging}

/-- A system that answers the same at the points of a solve is solved the same way. -/
theorem solve_onto (ha : t.Answers m (s.solve log).visits m')
    (hc : ∀ q ∈ (s.solve log).tested, t.accepts q = s.system.accepts q) :
    ((s.onto t m).solve log).report = (s.solve log).report ∧
      ((s.onto t m).solve log).logging = (s.solve log).logging ∧
      ((s.onto t m).solve log).solver = (s.solve log).solver.onto t m' := by
  obtain ⟨e, hv, h⟩ | ⟨hv, h⟩ := s.solve_cases log
  · have h' : (s.onto t m).solve log = _ := solve_of_refused (s := s.onto t m) hv log
    rw [h] at ha
    obtain rfl := Equations.answers_nil.mp ha
    rw [h, h']
    exact ⟨rfl, rfl, rfl⟩
  · rw [h] at ha hc
    have hrun : (s.onto t m).run = s.run.withMemory m' :=
      (s.isRun.observe (t := t) rfl ha hc).eq
    have h' := solve_of_isValid (s := s.onto t m) hv log
    rw [h, h', hrun]
    exact ⟨rfl, rfl, rfl⟩

/-- The evaluations of so many solves in a row, in order. -/
def visited (n : ℕ) (s : Solver μ) (log : Logging) : List Visit :=
  (solves n s log).flatMap (·.visits)

/-- The points on which the constraints were asked in so many solves in a row, in order. -/
def tested (n : ℕ) (s : Solver μ) (log : Logging) : List (Vec2 Float) :=
  (solves n s log).flatMap (·.tested)

/-- What so many solves in a row show, each with the logging that it leaves. -/
def reports (n : ℕ) (s : Solver μ) (log : Logging) : List (Solved.Report × Logging) :=
  (solves n s log).map fun r => (r.report, r.logging)

/--
Along so many solves, another system finds the same evaluations at the points that are visited, one after
another from its own memory, and has the same verdicts on the points that are tested.
-/
structure Agrees (n : ℕ) (s : Solver μ) (log : Logging) (t : Equations Float ν) (m : ν) : Prop where
  evaluations : (t.replay ((visited n s log).map (·.point)) m).1 = visited n s log
  verdicts : ∀ q ∈ tested n s log, t.accepts q = s.system.accepts q

/-- A system that answers the same at the points of so many solves is solved the same way. -/
theorem solves_onto (n : ℕ) (ha : t.Answers m (visited n s log) m')
    (hc : ∀ q ∈ tested n s log, t.accepts q = s.system.accepts q) :
    reports n (s.onto t m) log = reports n s log := by
  induction n generalizing s m log with
  | zero => rfl
  | succ n ih =>
    obtain ⟨m₁, ha, ha'⟩ := Equations.answers_append.mp ha
    obtain ⟨hr, hl, hs⟩ := solve_onto ha fun q hq => hc q (List.mem_append_left _ hq)
    -- The solver after the first solve is again put onto the other system.
    have hrest := ih ha' fun q hq =>
      (hc q (List.mem_append_right _ hq)).trans (by rw [s.system_solve])
    rw [reports, reports, solves, solves, List.map_cons, List.map_cons, hr, hl, hs]
    exact congrArg _ hrest

/-- Where systems agree along the run, the reports are equal. -/
lemma Agrees.reports_eq {n : ℕ} (h : Agrees n s log t m) :
    reports n (s.onto t m) log = reports n s log :=
  solves_onto n (Prod.ext h.evaluations rfl) h.verdicts

/-- What so many solves evaluate is what the system answers at their points, in order. -/
lemma exists_answers (n : ℕ) (s : Solver μ) (log : Logging) :
    ∃ m', s.system.Answers s.memory (visited n s log) m' := by
  induction n generalizing s log with
  | zero => exact ⟨s.memory, rfl⟩
  | succ n ih =>
    obtain ⟨m', h⟩ := ih (s.solve log).solver (s.solve log).logging
    rw [s.system_solve] at h
    exact ⟨m', Equations.answers_append.mpr ⟨_, s.replay_solve log, h⟩⟩

/-- Systems agree along all solves if they find the same at the visited points, in related memories. -/
lemma Agrees.of_related {R : μ → ν → Prop} (hR : R s.memory m) {n : ℕ}
    (he : ∀ v ∈ visited n s log, ∀ m n, R m n →
      (t.evaluate v.point n).1 = (s.system.evaluate v.point m).1 ∧
        R (s.system.evaluate v.point m).2 (t.evaluate v.point n).2)
    (hc : ∀ q ∈ tested n s log, t.accepts q = s.system.accepts q) : Agrees n s log t m where
  evaluations := by
    obtain ⟨_, h⟩ := exists_answers n s log
    have hsame := Equations.replay_related (List.forall_mem_map.mpr he) hR
    exact hsame.trans (congrArg Prod.fst h)
  verdicts := hc

/-- Constraints that have the same verdicts along all solves make no difference. -/
lemma Agrees.of_constraints {n : ℕ} {cs : List (Vec2 Float → Bool)}
    (hc : ∀ q ∈ tested n s log, cs.all (fun c => c q) = s.system.accepts q) :
    Agrees n s log { s.system with constraints := cs } s.memory :=
  .of_related (R := Eq) rfl (by rintro v - m _ rfl; exact ⟨rfl, rfl⟩) hc

/--
So many solves see their system only at the points that they visit and test: a system that agrees there
makes the same reports and the same log. Hence it makes no difference to permute the constraints, to put
one conjunction in their place, to add a constraint that accepts the points tested without it, or to give
two objectives and their estimated derivatives in another form.
-/
theorem solves_observed (s : Solver μ) (n : ℕ) (log : Logging) :
    (∀ {ν : Type} (t : Equations Float ν) (m : ν), Agrees n s log t m →
      reports n (s.onto t m) log = reports n s log) ∧
    (∀ cs, cs.Perm s.system.constraints →
      reports n (s.withSystem { s.system with constraints := cs }) log = reports n s log) ∧
    reports n (s.withSystem { s.system with constraints := [s.system.accepts] }) log =
      reports n s log ∧
    (∀ c, (∀ q ∈ tested n s log, c q = true) →
      reports n (s.withSystem (s.system.constrain c)) log = reports n s log) ∧
    ∀ step f g {ν ξ : Type} (t : Equations Float ν) (u : Equations Float ξ) m k,
      t.IsEstimated step f g → u.IsEstimated step f g → t.accepts = u.accepts →
      reports n (s.onto t m) log = reports n (s.onto u k) log := by
  refine ⟨fun t m => Agrees.reports_eq, fun cs hcs => ?_, ?_, fun c hc => ?_, ?_⟩
  · have h : Agrees n s log { s.system with constraints := cs } s.memory :=
      .of_constraints fun q _ => hcs.all_eq
    exact h.reports_eq
  · have h : Agrees n s log { s.system with constraints := [s.system.accepts] } s.memory :=
      .of_constraints fun q _ => Bool.and_true _
    exact h.reports_eq
  · have h : Agrees n s log (s.system.constrain c) s.memory := by
      refine .of_constraints fun q hq => ?_
      rw [List.all_append, List.all_cons, hc q hq]
      exact Bool.and_true _
    exact h.reports_eq
  · intro step f g ν ξ t u m k ht hu htu
    have h : Agrees n (s.onto u k) log t m := by
      refine .of_related (R := fun _ _ => True) trivial (fun v _ _ _ _ => ⟨?_, trivial⟩)
        fun q _ => ?_
      · exact (ht.evaluate_eq v.point _).trans (hu.evaluate_eq v.point _).symm
      · exact congrFun htu q
    exact h.reports_eq

/-- It is the crossing on a strip only, and it counts its evaluations. -/
def strip : Equations Float ℕ where
  evaluate p count :=
    (if p.x < 100.0 then ((crossing once).system.evaluate p ()).1
      else ⟨⟨0.0, 0.0⟩, ⟨0.0, 0.0, 0.0, 0.0⟩⟩, count + 1)
  constraints := [fun p => p.x > 0.0, fun p => p.x < 100.0]

/-- The points that the crossing tests lie on the strip. -/
lemma tested_lt : ∀ q ∈ tested 1 (crossing once) {}, q.x < 100.0 := by
  decide +kernel

/-- The strip agrees with the crossing along its run. -/
lemma agrees_strip : Agrees 1 (crossing once) {} strip 0 := by
  have hv : ∀ v ∈ visited 1 (crossing once) {}, v.point.x < 100.0 := by decide +kernel
  refine .of_related (R := fun _ _ => True) trivial (fun v hm _ _ _ => ⟨if_pos (hv v hm), trivial⟩)
    fun q hq => ?_
  simp [Equations.accepts, Equations.constrain, Equations.ofFunction, Equations.ofCombined, strip,
    crossing, tested_lt q hq]

/-- Two objectives with estimated derivatives, in one function that counts its calls. -/
def counted (f g : Vec2 Float → Float) : Equations Float ℕ :=
  .ofCombined fun p count => (((Equations.ofObjectives Difference.defaultStep f g).evaluate p ()).1,
    count + 1)

/-- The crossing reports the same on the strip, with one more constraint, and with its derivatives
estimated in two forms. -/
theorem crossing_observed :
    Agrees 1 (crossing once) {} strip 0 ∧ (visited 1 (crossing once) {}).length = 2 ∧
    reports 1 ((crossing once).onto strip 0) {} = reports 1 (crossing once) {} ∧
    reports 1 ((crossing once).withSystem ((crossing once).system.constrain (·.x < 100.0))) {} =
      reports 1 (crossing once) {} ∧
    reports 1 ((crossing once).onto (counted (·.x) (·.y)) 0) {} =
      reports 1 ((crossing once).onto (.ofObjectives Difference.defaultStep (·.x) (·.y)) ()) {} := by
  obtain ⟨hagrees, -, -, hconstrain, hforms⟩ := solves_observed (crossing once) 1 {}
  refine ⟨agrees_strip, by decide +kernel, hagrees strip 0 agrees_strip,
    hconstrain _ fun q hq => decide_eq_true (tested_lt q hq), ?_⟩
  exact hforms Difference.defaultStep _ _ _ _ _ _ (.combined fun _ _ => rfl) .objectives rfl

end Solver

end PlanarNewton
