import PlanarNewton.Proofs.Solver.Solve

/-!
# Reachable solvers

A solver comes from a constructor, and goes on by settings that are accepted and by solves
(`Solver.IsReachable`). Each setting makes its own check, and none of them undoes what another has
made sure of (`Solver.isChecked_set`); a solve leaves the configuration alone. So the only condition that
a reachable configuration may miss is the one between the two budgets (`Config.isValid_iff`). A solve
that finds it missing says so and does nothing else (`Solver.IsReachable.solve_answers`).
-/

namespace PlanarNewton
open Binary64

variable {μ : Type}

namespace Level

/-- The names of levels are in lower case. -/
lemma lowercase_of_mem {text : String} (h : text ∈ names) : Text.lowercase text = text := by
  have hall : ∀ t ∈ names, Text.lowercase t = t := by decide +kernel
  exact hall text h

/-- What a configuration keeps of a level, it would keep as it is. -/
lemma normalize_of_normalize {text small : String} (h : normalize text = .ok small) :
    normalize small = .ok small := by
  obtain ⟨hm, rfl⟩ := normalize_eq_ok.mp h
  rw [normalize_eq_ok, lowercase_of_mem hm]
  exact ⟨hm, rfl⟩

end Level

namespace Config

/-- What the checks of the single settings make sure of. -/
structure IsChecked (c : Config) : Prop where
  accuracy_isFinite : c.accuracy.isFinite = true
  accuracy_pos : ¬c.accuracy ≤ 0.0
  perTry_pos : 0 < c.iterationsPerTry.toNat
  total_pos : 0 < c.iterationsTotal.toNat
  range : checkSearchRange c.lower c.upper = .ok ()
  level : ∀ text, c.logLevel = some text → Text.lowercase text ∈ Level.names

variable {c : Config}

/-- To be valid is one condition more, between the two budgets. -/
theorem isValid_iff : c.IsValid ↔ c.IsChecked ∧ c.iterationsPerTry ≤ c.iterationsTotal := by
  constructor
  · intro h
    exact ⟨⟨h.accuracy_isFinite, h.accuracy_pos, h.perTry_pos, h.perTry_pos.trans_le h.perTry_le,
      h.range, h.level⟩, UInt64.le_iff_toNat_le.mpr h.perTry_le⟩
  · rintro ⟨h, hle⟩
    exact ⟨h.accuracy_isFinite, h.accuracy_pos, h.perTry_pos, UInt64.le_iff_toNat_le.mp hle,
      h.range, h.level⟩

/-- The default configuration is valid. -/
lemma isValid_default : ({} : Config).IsValid :=
  validate_iff.mp (eq_ok_of_toOption (by decide +kernel))

/-- A total budget that does not cover an attempt is what the check of a configuration finds. -/
lemma IsChecked.validate_eq (h : c.IsChecked) (hlt : c.iterationsTotal < c.iterationsPerTry) :
    c.validate = .error (.iterationsTotal c.iterationsTotal c.iterationsPerTry) := by
  have ha := checkAccuracy_eq_ok.mpr ⟨⟨h.accuracy_isFinite, h.accuracy_pos⟩, rfl⟩
  have hp := checkIterationsPerTry_eq_ok.mpr ⟨h.perTry_pos, rfl⟩
  have ht : checkIterationsTotal c.iterationsTotal c.iterationsPerTry =
      .error (.iterationsTotal c.iterationsTotal c.iterationsPerTry) := if_pos (.inr hlt)
  rw [validate, ha, hp, ht]
  rfl

end Config

namespace Solver

/-- No setting undoes what the checks of the others made sure of. -/
theorem isChecked_set {s t : Solver μ} {setting : Setting} (hs : s.config.IsChecked)
    (h : s.set setting = .ok t) : t.config.IsChecked := by
  cases setting with
  | budgets accuracy perTry total =>
    obtain ⟨_, hp, h⟩ := bind_eq_ok.mp h
    obtain ⟨_, ht, h⟩ := bind_eq_ok.mp h
    obtain ⟨_, ha, h⟩ := bind_eq_ok.mp h
    cases h
    obtain ⟨perTry_pos, rfl⟩ := Config.checkIterationsPerTry_eq_ok.mp hp
    obtain ⟨⟨total_pos, -⟩, rfl⟩ := Config.checkIterationsTotal_eq_ok.mp ht
    obtain ⟨⟨accuracy_isFinite, accuracy_pos⟩, rfl⟩ := Config.checkAccuracy_eq_ok.mp ha
    exact { hs with accuracy_isFinite, accuracy_pos, perTry_pos, total_pos }
  | accuracy v =>
    obtain ⟨_, ha, h⟩ := bind_eq_ok.mp h
    cases h
    obtain ⟨⟨accuracy_isFinite, accuracy_pos⟩, rfl⟩ := Config.checkAccuracy_eq_ok.mp ha
    exact { hs with accuracy_isFinite, accuracy_pos }
  | iterationsPerTry v =>
    obtain ⟨_, hp, h⟩ := bind_eq_ok.mp h
    cases h
    obtain ⟨perTry_pos, rfl⟩ := Config.checkIterationsPerTry_eq_ok.mp hp
    exact { hs with perTry_pos }
  | iterationsTotal v =>
    obtain ⟨_, ht, h⟩ := bind_eq_ok.mp h
    cases h
    obtain ⟨⟨total_pos, -⟩, rfl⟩ := Config.checkIterationsTotal_eq_ok.mp ht
    exact { hs with total_pos }
  | searchRange lower upper =>
    obtain ⟨_, hr, h⟩ := bind_eq_ok.mp h
    cases h
    exact { hs with range := hr }
  | seed | generator =>
    cases h
    exact { hs with }
  | logLevel text =>
    obtain ⟨_, hn, h⟩ := bind_eq_ok.mp h
    cases h
    refine { hs with level := ?_ }
    rintro _ ⟨⟩
    exact (Level.normalize_eq_ok.mp (Level.normalize_of_normalize hn)).1

/-- The solvers that constructors, settings and solves lead to, whatever is logged meanwhile. -/
inductive IsReachable : Solver μ → Prop where
  | new (system memory entropy) : IsReachable (new system memory entropy)
  | withConfig {system memory entropy config s}
      (h : withConfig system memory entropy config = .ok s) : IsReachable s
  | set {s setting t} (h : IsReachable s) (ht : s.set setting = .ok t) : IsReachable t
  | solve {s} (h : IsReachable s) (log : Logging) : IsReachable (s.solve log).solver

namespace IsReachable

variable {s : Solver μ}

/-- The settings of a reachable solver have passed their checks. -/
theorem isChecked (h : s.IsReachable) : s.config.IsChecked := by
  induction h with
  | new => exact (Config.isValid_iff.mp Config.isValid_default).1
  | withConfig h =>
    obtain ⟨_, hv, h⟩ := bind_eq_ok.mp h
    cases h
    exact (Config.isValid_iff.mp (Config.validate_iff.mp hv)).1
  | set _ ht ih => exact isChecked_set ih ht
  | @solve s _ log ih =>
    rw [s.config_solve log]
    exact ih

/--
A reachable solver is configured soundly, apart from what its two budgets are to each other. So a solve
finds a solution, or it says that there is none, or that the total budget does not cover an attempt. It
says the last exactly if this is so, and then nothing has changed.
-/
theorem solve_answers (h : s.IsReachable) :
    (s.config.accuracy.isFinite = true ∧ 0.0 < s.config.accuracy) ∧
    1 ≤ s.config.iterationsPerTry ∧ 1 ≤ s.config.iterationsTotal ∧
    (s.config.lower.isFinite = true ∧ s.config.upper.isFinite = true ∧
      s.config.lower.x < s.config.upper.x ∧ s.config.lower.y < s.config.upper.y ∧
      (s.config.upper - s.config.lower).isFinite = true) ∧
    (∀ text, s.config.logLevel = some text → ∃ level, Level.parse text = .ok level) ∧
    ∀ log,
      ((∃ p, (s.solve log).result = .ok p) ∨
        (∃ attempts iterations,
          (s.solve log).result = .error (.noSolution attempts iterations)) ∨
        (s.solve log).result =
          .error (.iterationsTotal s.config.iterationsTotal s.config.iterationsPerTry)) ∧
      ((s.solve log).result =
          .error (.iterationsTotal s.config.iterationsTotal s.config.iterationsPerTry) ↔
        s.config.iterationsTotal < s.config.iterationsPerTry) ∧
      (s.config.iterationsTotal < s.config.iterationsPerTry →
        (s.solve log).solver = s ∧ (s.solve log).logging = log ∧ (s.solve log).run = none) := by
  have hc := h.isChecked
  obtain ⟨hx, hy⟩ := Config.isSide_of_checkSearchRange hc.range
  refine ⟨⟨hc.accuracy_isFinite, (float_not_le hc.accuracy_isFinite rfl).mp hc.accuracy_pos⟩,
    UInt64.le_iff_toNat_le.mpr hc.perTry_pos, UInt64.le_iff_toNat_le.mpr hc.total_pos,
    ⟨?_, ?_, hx.low_lt_high, hy.low_lt_high, ?_⟩, fun text ht => Level.exists_parse (hc.level text ht),
    fun log => ?_⟩
  · exact Bool.and_eq_true_iff.mpr ⟨hx.low_finite, hy.low_finite⟩
  · exact Bool.and_eq_true_iff.mpr ⟨hx.high_finite, hy.high_finite⟩
  · exact Bool.and_eq_true_iff.mpr ⟨hx.width_finite, hy.width_finite⟩
  · by_cases hlt : s.config.iterationsTotal < s.config.iterationsPerTry
    · rw [solve_of_refused (hc.validate_eq hlt)]
      exact ⟨.inr (.inr rfl), iff_of_true rfl hlt, fun _ => ⟨rfl, rfl, rfl⟩⟩
    · have hv := Config.isValid_iff.mpr ⟨hc, UInt64.not_lt.mp hlt⟩
      refine ⟨?_, iff_of_false ?_ hlt, fun h => absurd h hlt⟩
      · cases hq : (s.solve log).result with
        | ok p => exact .inl ⟨p, rfl⟩
        | error e => exact .inr (.inl ⟨_, _, congrArg _ (error_of_isValid hv hq)⟩)
      · -- The run has no such error.
        intro he
        cases error_of_isValid hv he

end IsReachable

/-- The crossing with a total budget that does not cover an attempt. -/
def overdrawn : Solver Unit :=
  crossing { iterationsTotal := 5 }

/-- A solver of the crossing comes to this state by one setting. -/
lemma isReachable_overdrawn : overdrawn.IsReachable := by
  have h : (crossing {}).set (.iterationsTotal 5) = .ok overdrawn := rfl
  exact .set (.new _ _ _) h

/-- A total budget that does not cover an attempt is refused by the solve, which leaves the solver
as it is. -/
theorem overdrawn_answers :
    overdrawn.IsReachable ∧ (overdrawn.solve {}).result = .error (.iterationsTotal 5 1000) ∧
    (overdrawn.solve {}).solver = overdrawn := by
  obtain ⟨-, -, -, -, -, hsolve⟩ := IsReachable.solve_answers isReachable_overdrawn
  obtain ⟨-, hiff, hsame⟩ := hsolve {}
  have hlt : overdrawn.config.iterationsTotal < overdrawn.config.iterationsPerTry := by decide
  exact ⟨isReachable_overdrawn, hiff.mpr hlt, (hsame hlt).1⟩

end Solver

end PlanarNewton
