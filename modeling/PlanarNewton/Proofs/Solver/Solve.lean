import PlanarNewton.Proofs.Solver.Run
import PlanarNewton.Solver.Basic

/-!
# What a solve does

`validate` accepts a configuration exactly if each of its conditions holds (`Config.validate_iff`). A
solve with an accepted configuration always comes to its run (`Solver.solve_of_isValid`), since the
level that a configuration names is one that logging knows; any other solve changes nothing
(`Solver.solve_of_refused`), and its error is none that a run ends with. There is no third case
(`Solver.solve_cases`).
-/

namespace PlanarNewton

/-- A computation that has a value goes well with it. -/
lemma eq_ok_of_toOption {ε α : Type} {x : Except ε α} {a : α} (h : x.toOption = some a) :
    x = .ok a := by
  cases x <;> cases h
  rfl

/-- A computation that has no value goes wrong with some error. -/
lemma exists_error_of_toOption {ε α : Type} {x : Except ε α} (h : x.toOption = none) :
    ∃ e, x = .error e := by
  cases x with
  | error e => exact ⟨e, rfl⟩
  | ok a => cases h

/-- A computation goes well if both of its parts do. -/
lemma bind_eq_ok {ε α β : Type} {x : Except ε α} {f : α → Except ε β} {b : β} :
    (x >>= f) = .ok b ↔ ∃ a, x = .ok a ∧ f a = .ok b := by
  cases x with
  | error e => exact ⟨nofun, nofun⟩
  | ok a => exact ⟨fun h => ⟨a, rfl, h⟩, fun ⟨_, ha, h⟩ => by cases ha; exact h⟩

/-- A computation goes wrong in its first part or in its second. -/
lemma bind_eq_error {ε α β : Type} {x : Except ε α} {f : α → Except ε β} {e : ε} :
    (x >>= f) = .error e ↔ x = .error e ∨ ∃ a, x = .ok a ∧ f a = .error e := by
  cases x with
  | error e' =>
    constructor
    · intro h
      cases h
      exact .inl rfl
    · rintro (h | ⟨_, h, -⟩) <;> cases h
      rfl
  | ok a =>
    constructor
    · exact fun h => .inr ⟨a, rfl, h⟩
    · rintro (h | ⟨_, h, hf⟩) <;> cases h
      exact hf

/-- A check answers with its own error. -/
lemma error_of_ite {ε α : Type} {p : Prop} [Decidable p] {e e' : ε} {a : α}
    (h : (if p then Except.error e else .ok a) = .error e') : e = e' := by
  split at h <;> cases h
  rfl

/-- A level is normalized if its lower-case form names one, and then to this form. -/
lemma Level.normalize_eq_ok {text small : String} :
    normalize text = .ok small ↔ Text.lowercase text ∈ names ∧ Text.lowercase text = small := by
  simp only [normalize, List.contains_iff_mem]
  split
  · simp [*]
  · simp [*]

/-- A level is refused with its lower-case form if that names none. -/
lemma Level.normalize_eq_error {text : String} {e : Error} :
    normalize text = .error e ↔ Text.lowercase text ∉ names ∧ .logLevel (Text.lowercase text) = e := by
  simp only [normalize, List.contains_iff_mem]
  split
  · simp [*]
  · simp [*]

/-- Logging knows the levels that a configuration may name. -/
lemma Level.exists_parse {text : String} (h : Text.lowercase text ∈ names) :
    ∃ level, parse text = .ok level := by
  rw [parse]
  simp only [names, List.mem_cons, List.not_mem_nil, or_false] at h
  rcases h with h | h | h | h | h | h <;> rw [h] <;> exact ⟨_, rfl⟩

namespace Config

/-- What `validate` makes sure of. -/
structure IsValid (c : Config) : Prop where
  accuracy_isFinite : c.accuracy.isFinite = true
  accuracy_pos : ¬c.accuracy ≤ 0.0
  perTry_pos : 0 < c.iterationsPerTry.toNat
  perTry_le : c.iterationsPerTry.toNat ≤ c.iterationsTotal.toNat
  range : checkSearchRange c.lower c.upper = .ok ()
  level : ∀ text, c.logLevel = some text → Text.lowercase text ∈ Level.names

/-- An accuracy is accepted as it is, if it is finite and positive. -/
lemma checkAccuracy_eq_ok {v w : Float} :
    checkAccuracy v = .ok w ↔ (v.isFinite = true ∧ ¬v ≤ 0.0) ∧ v = w := by
  unfold checkAccuracy
  by_cases hf : v.isFinite = true
  · by_cases hp : v ≤ 0.0
    · simp [hf, hp]
    · simp [hf, hp]
  · simp [hf]

/-- The budget of an attempt is accepted as it is, if it is positive. -/
lemma checkIterationsPerTry_eq_ok {v w : UInt64} :
    checkIterationsPerTry v = .ok w ↔ 0 < v.toNat ∧ v = w := by
  unfold checkIterationsPerTry
  by_cases h : v = 0
  · simp [h]
  · have : v.toNat ≠ 0 := fun h' => h (UInt64.toNat_inj.mp h')
    simp [h, Nat.pos_of_ne_zero this]

/-- The budget of all attempts is accepted as it is, if it is positive and covers one attempt. -/
lemma checkIterationsTotal_eq_ok {v perTry w : UInt64} :
    checkIterationsTotal v perTry = .ok w ↔ (0 < v.toNat ∧ perTry.toNat ≤ v.toNat) ∧ v = w := by
  unfold checkIterationsTotal
  by_cases h : v = 0
  · simp [h]
  · have : v.toNat ≠ 0 := fun h' => h (UInt64.toNat_inj.mp h')
    by_cases h' : v < perTry
    · have := UInt64.lt_iff_toNat_lt.mp h'
      simp [h, h', this]
    · have := UInt64.lt_iff_toNat_lt.not.mp h'
      simp [h, h', not_lt.mp this, Nat.pos_of_ne_zero ‹_›]

/-- A configuration is accepted exactly if it is valid. -/
theorem validate_iff {c : Config} : c.validate = .ok () ↔ c.IsValid := by
  simp only [validate, bind_eq_ok, checkAccuracy_eq_ok, checkIterationsPerTry_eq_ok,
    checkIterationsTotal_eq_ok]
  constructor
  · rintro ⟨_, ⟨⟨haf, hap⟩, -⟩, _, ⟨hp, -⟩, _, ⟨⟨-, hpt⟩, -⟩, _, hr, hl⟩
    refine ⟨haf, hap, hp, hpt, hr, fun text ht => ?_⟩
    rw [ht] at hl
    obtain ⟨_, hn, -⟩ := bind_eq_ok.mp hl
    exact (Level.normalize_eq_ok.mp hn).1
  · rintro ⟨haf, hap, hp, hpt, hr, hl⟩
    refine ⟨_, ⟨⟨haf, hap⟩, rfl⟩, _, ⟨hp, rfl⟩, _, ⟨⟨hp.trans_le hpt, hpt⟩, rfl⟩, _, hr, ?_⟩
    cases ht : c.logLevel with
    | none => rfl
    | some text => exact bind_eq_ok.mpr ⟨_, Level.normalize_eq_ok.mpr ⟨hl text ht, rfl⟩, rfl⟩

/-- The check of a configuration answers with a setting that it refuses. -/
lemma error_of_validate {c : Config} {e : Error} (h : c.validate = .error e) :
    .accuracy c.accuracy = e ∨ .iterationsPerTry c.iterationsPerTry = e ∨
      .iterationsTotal c.iterationsTotal c.iterationsPerTry = e ∨ .searchRange c.lower c.upper = e ∨
      ∃ text, c.logLevel = some text ∧ Text.lowercase text ∉ Level.names ∧
        .logLevel (Text.lowercase text) = e := by
  simp only [validate, bind_eq_error] at h
  -- One check after another, each with errors of its own.
  obtain h | ⟨_, -, h | ⟨_, -, h | ⟨_, -, h | ⟨_, -, h⟩⟩⟩⟩ := h
  · exact .inl (error_of_ite h)
  · exact .inr (.inl (error_of_ite h))
  · exact .inr (.inr (.inl (error_of_ite h)))
  · exact .inr (.inr (.inr (.inl (error_of_ite h))))
  · cases ht : c.logLevel with
    | none =>
      rw [ht] at h
      cases h
    | some text =>
      rw [ht] at h
      obtain h | ⟨_, -, h⟩ := bind_eq_error.mp h
      · exact .inr (.inr (.inr (.inr ⟨text, rfl, Level.normalize_eq_error.mp h⟩)))
      · cases h

/-- The check of a configuration never says that there is no solution. -/
lemma validate_ne_noSolution (c : Config) (attempts iterations : ℕ) :
    c.validate ≠ .error (.noSolution attempts iterations) := by
  intro h
  obtain h | h | h | h | ⟨_, -, -, h⟩ := error_of_validate h <;> cases h

end Config

namespace Solver

variable {μ : Type}

/-- Logging can start with a level that a configuration may name. -/
lemma startLogging_of_level {c : Config}
    (h : ∀ text, c.logLevel = some text → Text.lowercase text ∈ Level.names) (log : Logging) :
    ∃ log', startLogging c log = (.ok (), log') := by
  unfold startLogging
  cases ht : c.logLevel with
  | none => exact ⟨_, rfl⟩
  | some text =>
    obtain ⟨level, hl⟩ := Level.exists_parse (h text ht)
    simp only [Logging.start, hl]
    cases level with
    | off => exact ⟨_, rfl⟩
    | upTo severity => cases log.logger <;> exact ⟨_, rfl⟩

/-- Logging can start with the level of a valid configuration. -/
lemma startLogging_ok {c : Config} (h : c.IsValid) (log : Logging) :
    ∃ log', startLogging c log = (.ok (), log') :=
  startLogging_of_level h.level log

/-- The solver after a run. -/
def after (s : Solver μ) (run : Run μ) : Solver μ :=
  { s with memory := run.memory, generator := run.generator, measures := some run.measures }

/-- The run that a solve makes if the configuration is accepted. -/
def run (s : Solver μ) : Run μ :=
  s.system.run s.config s.generator s.memory

/-- The run of a solve follows from its solver. -/
lemma isRun (s : Solver μ) :
    s.system.IsRun s.config { generator := s.generator, memory := s.memory } s.run :=
  Equations.isRun_run s.system s.config s.generator s.memory

/-- A solve with a valid configuration answers with its run. -/
theorem solve_of_isValid {s : Solver μ} (h : s.config.IsValid) (log : Logging) :
    s.solve log = ⟨s.run.result, s.after s.run,
      (startLogging s.config log).2.recordAll s.run.events, some s.run⟩ := by
  obtain ⟨log', hl⟩ := startLogging_ok h log
  rw [solve, Config.validate_iff.mpr h, hl]
  rfl

/-- A solve with a configuration that is not accepted does nothing. -/
theorem solve_of_refused {s : Solver μ} {e : Error} (h : s.config.validate = .error e)
    (log : Logging) : s.solve log = ⟨.error e, s, log, none⟩ := by
  rw [solve, h]

/-- A solve is refused and does nothing, or it answers with its run. -/
lemma solve_cases (s : Solver μ) (log : Logging) :
    (∃ e, s.config.validate = .error e ∧ s.solve log = ⟨.error e, s, log, none⟩) ∨
      s.config.IsValid ∧ s.solve log = ⟨s.run.result, s.after s.run,
        (startLogging s.config log).2.recordAll s.run.events, some s.run⟩ := by
  cases hv : s.config.validate with
  | error e => exact .inl ⟨e, rfl, solve_of_refused hv log⟩
  | ok =>
    have hc := Config.validate_iff.mp hv
    exact .inr ⟨hc, solve_of_isValid hc log⟩

/-- A solve does not change the system. -/
lemma system_solve (s : Solver μ) (log : Logging) : (s.solve log).solver.system = s.system := by
  obtain ⟨e, -, h⟩ | ⟨-, h⟩ := s.solve_cases log
  · rw [h]
  · rw [h]
    rfl

/-- A solve does not change the configuration. -/
lemma config_solve (s : Solver μ) (log : Logging) : (s.solve log).solver.config = s.config := by
  obtain ⟨e, -, h⟩ | ⟨-, h⟩ := s.solve_cases log
  · rw [h]
  · rw [h]
    rfl

/-- The visits of a run are what the system answers at their points, in order. -/
lemma replay_run (s : Solver μ) :
    s.system.replay (s.run.visits.map (·.point)) s.memory = (s.run.visits, s.run.memory) := by
  -- Nothing was visited before the run, so what it adds are all its visits.
  obtain ⟨visits, he, hm⟩ := s.isRun.replay
  obtain rfl : _ = visits := he
  exact hm

/-- With a valid configuration, a solve without a solution says that there is none. -/
lemma error_of_isValid {s : Solver μ} {log : Logging} {e : Error} (h : s.config.IsValid)
    (he : (s.solve log).result = .error e) :
    e = .noSolution s.run.measures.attempts s.run.measures.totalIterations := by
  rw [solve_of_isValid h] at he
  exact s.isRun.result_of_error he

/-- A solve answers with the solution of its run. -/
lemma result_of_run {s : Solver μ} {q : Vec2 Float} (h : s.config.IsValid)
    (hq : s.run.result.toOption = some q) (log : Logging) : (s.solve log).result = .ok q := by
  rw [solve_of_isValid h]
  exact eq_ok_of_toOption hq

/-- A solve answers with an error if its run has no solution. -/
lemma exists_error_of_run {s : Solver μ} (h : s.config.IsValid)
    (hn : s.run.result.toOption = none) (log : Logging) :
    ∃ e, (s.solve log).result = .error e := by
  rw [solve_of_isValid h]
  exact exists_error_of_toOption hn

/-- Only a run finds a solution or says that there is none. -/
lemma isValid_of_ok {s : Solver μ} {log : Logging} {q : Vec2 Float}
    (h : (s.solve log).result = .ok q) : s.config.IsValid := by
  obtain ⟨e, -, hs⟩ | ⟨hc, -⟩ := s.solve_cases log
  · rw [hs] at h
    cases h
  · exact hc

/-- Only a valid configuration leads to the answer that there is no solution. -/
lemma isValid_of_noSolution {s : Solver μ} {log : Logging} {attempts iterations : ℕ}
    (h : (s.solve log).result = .error (.noSolution attempts iterations)) : s.config.IsValid := by
  obtain ⟨e, hv, hs⟩ | ⟨hc, -⟩ := s.solve_cases log
  · rw [hs] at h
    cases h
    exact absurd hv (s.config.validate_ne_noSolution _ _)
  · exact hc

/-- Two lines that cross in `(2, 1)`, in the half plane to the right. -/
def crossing (c : Config) : Solver Unit where
  system := (Equations.ofFunction fun p =>
    ⟨⟨p.x + p.y - 3.0, p.x - p.y - 1.0⟩, ⟨1.0, 1.0, 1.0, -1.0⟩⟩).constrain fun p => p.x > 0.0
  memory := ()
  config := c
  generator := .ofSeed 1

/-- One attempt of one step. -/
def once : Config where
  iterationsPerTry := 1
  iterationsTotal := 1

/-- A search box outside the half plane. -/
def outside : Config where
  iterationsPerTry := 2
  iterationsTotal := 3
  lower := ⟨-2.0, 0.0⟩
  upper := ⟨-1.0, 1.0⟩

/-- The budget of all attempts does not cover that of one. -/
def meagre : Config where
  iterationsTotal := 5

/-- The configuration with one step is valid. -/
lemma isValid_once : once.IsValid :=
  Config.validate_iff.mp (eq_ok_of_toOption (by decide +kernel))

/-- The configuration with the box outside is valid. -/
lemma isValid_outside : outside.IsValid :=
  Config.validate_iff.mp (eq_ok_of_toOption (by decide +kernel))

/-- That budget is refused with any level. -/
lemma exists_error_meagre (level : Option String) :
    ∃ e, Config.validate { meagre with logLevel := level } = .error e := by
  cases hv : Config.validate { meagre with logLevel := level } with
  | error e => exact ⟨e, rfl⟩
  | ok =>
    have hnot : ¬meagre.iterationsPerTry.toNat ≤ meagre.iterationsTotal.toNat := by decide
    exact absurd (Config.validate_iff.mp hv).perTry_le hnot

/-- The crossing is reached by the only step. -/
lemma crossing_once : (crossing once).run.result.toOption = some ⟨2.0, 1.0⟩ := by
  decide +kernel

/-- Outside the half plane, no solution is found. -/
lemma crossing_outside : (crossing outside).run.result.toOption = none := by
  decide +kernel

end Solver

end PlanarNewton
