import PlanarNewton.Proofs.Random.Stream
import PlanarNewton.Proofs.Solver.Session

/-!
# One stream of starts

All the points that a session draws come from one stream (`Session.stream`): in order, each takes the
next pair of numbers of the generator and stands in the box that was configured then, and the starts
are the points among them that the constraints accept. `Equations.Samples` says this of any stretch of
drawing, and stretches that follow each other are one (`Samples.append`); so it goes from a draw to a
run (`IsRun.samples`), to a solve and to a session. How many points a run drew is read off its measures
(`IsRun.length_candidates`).
-/

namespace PlanarNewton

variable {μ : Type}

/-- The box that starts are drawn from. -/
def Config.box (c : Config) : Box :=
  ⟨c.lower, c.upper⟩

/-- The points that a draw took from the generator, in order. -/
def Draw.candidates (d : Draw) : List (Vec2 Float) :=
  d.refused ++ d.start.toList

/-- The points at which the attempts of so many rounds began. -/
def startsOf (rounds : List Round) : List (Vec2 Float) :=
  rounds.filterMap fun r => r.visits.head?.map (·.point)

namespace Progress

/-- A round adds its start to those iterated from. -/
lemma startsOf_after (p : Progress μ) {d : Draw} {start : Vec2 Float} {a : Attempt μ}
    (h : a.visits.head?.map (·.point) = some start) :
    startsOf (p.after d start a).rounds.reverse = startsOf p.rounds.reverse ++ [start] := by
  rw [startsOf, after, List.reverse_cons, List.filterMap_append]
  exact congrArg (startsOf _ ++ ·) (List.filterMap_cons_some h)

end Progress

namespace Equations

variable {s : Equations Float μ}

/--
From a generator, candidates were drawn in the given boxes, one in each, and the starts are those that
the constraints accept; `g'` is the generator after this.
-/
structure Samples (s : Equations Float μ) (g : Generator) (boxes : List Box)
    (candidates starts : List (Vec2 Float)) (g' : Generator) : Prop where
  yields : g.Yields boxes candidates g'
  starts_eq : starts = candidates.filter s.accepts

namespace Samples

variable {g g' g'' : Generator} {boxes boxes' : List Box} {cs cs' ss ss' : List (Vec2 Float)}

/-- Nothing is sampled from no boxes. -/
lemma nil (g : Generator) : s.Samples g [] [] [] g :=
  ⟨.nil g, rfl⟩

/-- One accepted point is sampled from one box. -/
lemma accepted {box : Box} {p : Vec2 Float} (hp : g.point box.lower box.upper = (p, g'))
    (hc : s.accepts p = true) : s.Samples g [box] [p] [p] g' :=
  ⟨.one hp, by rw [List.filter_cons_of_pos hc, List.filter_nil]⟩

/-- One refused point is sampled from one box. -/
lemma refused {box : Box} {p : Vec2 Float} (hp : g.point box.lower box.upper = (p, g'))
    (hc : s.accepts p = false) : s.Samples g [box] [p] [] g' :=
  ⟨.one hp, by rw [List.filter_cons_of_neg (Bool.eq_false_iff.mp hc), List.filter_nil]⟩

/-- Stretches that follow each other are one. -/
theorem append (h : s.Samples g boxes cs ss g') (h' : s.Samples g' boxes' cs' ss' g'') :
    s.Samples g (boxes ++ boxes') (cs ++ cs') (ss ++ ss') g'' := by
  refine ⟨h.yields.append h'.yields, ?_⟩
  rw [h.starts_eq, h'.starts_eq, List.filter_append]

/-- Stretches in the same box are one, as long as they are together. -/
lemma append_replicate {box : Box} (h : s.Samples g (.replicate cs.length box) cs ss g')
    (h' : s.Samples g' (.replicate cs'.length box) cs' ss' g'') :
    s.Samples g (.replicate (cs ++ cs').length box) (cs ++ cs') (ss ++ ss') g'' := by
  rw [List.length_append, ← List.replicate_append_replicate]
  exact h.append h'

end Samples

/-- A draw takes its candidates one after another, and its start is the one that is accepted. -/
lemma IsDraw.samples (box : Box) {patience : ℕ} {g : Generator} {d : Draw}
    (h : s.IsDraw box.lower box.upper patience g d) :
    s.Samples g (.replicate d.candidates.length box) d.candidates d.start.toList d.generator := by
  induction h with
  | spent => exact .nil _
  | accepted hp hc => exact .accepted hp hc
  | refused hp hc _ ih => exact (Samples.refused hp hc).append ih

variable {c : Config} {g : Generator} {p : Progress μ} {run : Run μ}

/-- What was drawn from `g` before the progress was made. -/
def IsSampled (s : Equations Float μ) (c : Config) (g : Generator) (p : Progress μ) : Prop :=
  s.Samples g (.replicate p.candidates.length c.box) p.candidates (startsOf p.rounds.reverse)
    p.generator

/-- A round goes on with the candidates of its draw. -/
lemma IsRound.isSampled {d : Draw} {start : Vec2 Float} {a : Attempt μ}
    (h : s.IsRound c p d start a) (hp : s.IsSampled c g p) :
    s.IsSampled c g (p.after d start a) := by
  have hd := IsDraw.samples c.box h.draw
  rw [Draw.candidates, h.found] at hd
  rw [IsSampled, p.candidates_after, p.startsOf_after h.attempt.head?_visits]
  exact hp.append_replicate hd

/-- A run takes its candidates one after another, and its attempts begin at those accepted. -/
theorem IsRun.samples (h : IsRun s c p run) (hp : s.IsSampled c g p) :
    s.Samples g (.replicate run.candidates.length c.box) run.candidates (startsOf run.rounds)
      run.generator := by
  induction h with
  | @spent p =>
    rw [p.candidates_unsolved]
    exact hp
  | @givenUp p d hu hd hn =>
    -- All candidates of the last draw were refused.
    have hs := IsDraw.samples c.box hd
    rw [Draw.candidates, hn, Option.toList_none, List.append_nil] at hs
    have hr := hp.append_replicate hs
    rw [List.append_nil] at hr
    exact hr
  | @solved p d start a q r h ho =>
    rw [Progress.candidates_solved]
    exact h.isSampled hp
  | again h _ _ ih => exact ih (h.isSampled hp)

end Equations

/-- The measures of so many rounds count the points that these drew. -/
lemma length_candidates_tally (rounds : List Round) :
    (rounds.flatMap fun r => r.refused ++ [r.start]).length =
      (tally rounds).rejectedStarts + (tally rounds).attempts := by
  induction rounds using List.reverseRecOn with
  | nil => rfl
  | append_singleton rounds r ih =>
    rw [List.flatMap_append, List.length_append, ih, List.flatMap_singleton, List.length_append,
      tally_concat]
    show _ = (tally rounds).rejectedStarts + r.refused.length + ((tally rounds).attempts + 1)
    rw [List.length_singleton]
    omega

/-- Each attempt drew its start, only the one that was made up for a sampling given up did not. -/
lemma Run.length_candidates (run : Run μ) :
    run.candidates.length + (if run.givenUp.isSome then 1 else 0) =
      run.ledger.rejectedStarts + run.ledger.attempts := by
  rw [candidates, List.length_append, length_candidates_tally, ledger]
  cases run.givenUp with
  | none => rfl
  | some refused =>
    show _ + refused.length + 1 =
      (tally run.rounds).rejectedStarts + refused.length + ((tally run.rounds).attempts + 1)
    omega

namespace Solved

/-- The boxes that the points of a solve were drawn from, one for each point. -/
def boxes (r : Solved μ) : List Box :=
  .replicate r.candidates.length r.solver.config.box

/-- The points at which the attempts of a solve began. -/
def starts (r : Solved μ) : List (Vec2 Float) :=
  startsOf r.rounds

end Solved

namespace Solver

/-- A run drew as many points as its measures count, less the start that a give-up never had. -/
lemma length_candidates_run (s : Solver μ) :
    s.run.candidates.length = s.run.measures.rejectedStarts + s.run.measures.attempts -
      (if s.run.givenUp.isSome then 1 else 0) := by
  obtain ⟨r, hm⟩ := s.isRun.exists_measures_eq rfl
  have hr : s.run.measures.rejectedStarts = s.run.ledger.rejectedStarts := by rw [hm]
  have ha : s.run.measures.attempts = s.run.ledger.attempts := by rw [hm]
  have h := s.run.length_candidates
  omega

/-- A solve takes its candidates one after another from the box of its configuration. -/
lemma samples_solve (s : Solver μ) (log : Logging) :
    s.system.Samples s.generator (s.solve log).boxes (s.solve log).candidates (s.solve log).starts
      (s.solve log).solver.generator := by
  obtain ⟨e, -, h⟩ | ⟨-, h⟩ := s.solve_cases log
  · rw [h]
    exact .nil _
  · rw [h]
    exact s.isRun.samples (.nil _)

/-- A solver that was just given its generator: made with a seed, seeded, or handed it. -/
inductive IsSeeded : Solver μ → Generator → Prop where
  | withConfig {system memory entropy config seed} {s : Solver μ} (hs : config.seed = some seed)
      (h : withConfig system memory entropy config = .ok s) : IsSeeded s (.ofSeed seed)
  | seed {r s : Solver μ} {seed} (h : r.set (.seed seed) = .ok s) : IsSeeded s (.ofSeed seed)
  | generator {r s : Solver μ} {g} (h : r.set (.generator g) = .ok s) : IsSeeded s g

/-- A seeded solver draws from the generator of its seed. -/
lemma IsSeeded.generator_eq {s : Solver μ} {g : Generator} (h : s.IsSeeded g) :
    s.generator = g := by
  cases h with
  | withConfig hs h =>
    obtain ⟨_, -, h⟩ := bind_eq_ok.mp h
    cases h
    exact congrArg (Option.elim · _ Generator.ofSeed) hs
  | seed h | generator h =>
    cases h
    rfl

end Solver

namespace Session

variable {s t : Solver μ} {log log' : Logging} {settings : List Setting} {solves : List (Solved μ)}

/-- As long as the generator is not replaced, all solves of a session take from one stream. -/
theorem samples (h : Session s log settings solves t log')
    (hs : ∀ setting ∈ settings, setting.replacesGenerator = false) :
    s.system.Samples s.generator (solves.flatMap (·.boxes)) (solves.flatMap (·.candidates))
      (solves.flatMap (·.starts)) t.generator := by
  induction h with
  | start => exact .nil _
  | @set settings solves t log' setting t' h ht ih =>
    obtain ⟨_, g, rfl, hg⟩ := Solver.exists_of_set ht
    obtain rfl := hg (hs _ (List.mem_append_right _ List.mem_cons_self))
    exact ih fun setting hm => hs setting (List.mem_append_left _ hm)
  | @solve settings solves t log' h ih =>
    have hr := t.samples_solve log'
    rw [h.system_eq] at hr
    have hrs := (ih hs).append hr
    simpa only [List.flatMap_append, List.flatMap_singleton] using hrs

/--
After a solver was given its generator, all candidates that it draws, in any number of solves with any
settings made between them, are the points that successive pairs of numbers of the stream stand for in
the boxes configured at the time; and its attempts begin at those candidates that all constraints
accept. The generator moves on by two numbers for each candidate, and by nothing else.
-/
theorem stream {g : Generator} (hg : s.IsSeeded g) (h : Session s log settings solves t log')
    (hs : ∀ setting ∈ settings, setting.replacesGenerator = false) :
    solves.flatMap (·.candidates) = g.points (solves.flatMap (·.boxes)) ∧
    solves.flatMap (·.starts) = (solves.flatMap (·.candidates)).filter s.system.accepts ∧
    t.generator = g.skip (solves.flatMap (·.candidates)).length ∧
    (∀ setting t', t.set setting = .ok t' → setting.replacesGenerator = false →
      t'.generator = t.generator) ∧
    (∀ e, t.config.validate = .error e →
      (t.solve log').solver.generator = t.generator ∧ (t.solve log').candidates = []) ∧
    (t.config.validate = .ok () → ∃ run m, (t.solve log').run = some run ∧
      (t.solve log').solver.measures = some m ∧ (t.solve log').solver.config = t.config ∧
      (t.solve log').solver.generator = .atPosition t.generator.key (t.generator.position +
        2 * (m.rejectedStarts + m.attempts - (if run.givenUp.isSome then 1 else 0)))) := by
  obtain rfl := hg.generator_eq
  have hall := h.samples hs
  refine ⟨hall.yields.drawn_eq, hall.starts_eq, ?_, ?_, ?_, ?_⟩
  · rw [hall.yields.length]
    exact hall.yields.generator_eq
  · intro setting t' ht hr
    obtain ⟨_, g, rfl, hg⟩ := Solver.exists_of_set ht
    exact hg hr
  · intro e he
    rw [Solver.solve_of_refused he]
    exact ⟨rfl, rfl⟩
  · intro hv
    have hsolve := Solver.solve_of_isValid (Config.validate_iff.mp hv) log'
    have hr := (t.samples_solve log').yields
    have hg := hr.generator_eq
    rw [← hr.length, hsolve] at hg
    refine ⟨t.run, t.run.measures, congrArg Solved.run hsolve, ?_, t.config_solve log', ?_⟩
    · rw [hsolve]
      rfl
    · rw [hsolve, ← t.length_candidates_run]
      exact hg

/-- Both solves of the crossing take their points from the stream of its seed. -/
theorem crossing_stream :
    ∃ solves t log, Session (Solver.crossing Solver.once) {} [.iterationsTotal 2] solves t log ∧
      solves.length = 2 ∧ (∃ r ∈ solves, r.result = .ok ⟨2.0, 1.0⟩) ∧
      solves.flatMap (·.candidates) = (Generator.ofSeed 1).points (solves.flatMap (·.boxes)) := by
  obtain ⟨solves, t, log, h, hl, hq⟩ := exists_twice
  have hs : ∀ setting ∈ [Setting.iterationsTotal 2], setting.replacesGenerator = false :=
    List.forall_mem_singleton.mpr rfl
  obtain ⟨hp, -⟩ := h.stream (.generator (r := Solver.crossing Solver.once) rfl) hs
  exact ⟨solves, t, log, h, hl, hq, hp⟩

end Session

end PlanarNewton
