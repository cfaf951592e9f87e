import PlanarNewton.Proofs.Solver.Observation

/-!
# Seeded solvers

What a solve reports depends on the system and its memory, on the configuration and on the generator. It
does not depend on the seed that the configuration notes, on the measures of the last solve, or on what
was logged (`Solver.solves_noting`); and if the system is stateless, nor on its memory
(`Solver.solves_of_isStateless`). So a seed wipes out all that happened to a solver: it goes on like one
that is made with its settings and that seed (`Session.solves_reseeded`).
-/

namespace PlanarNewton

variable {μ : Type}

namespace Equations

/-- What the system finds at a point does not depend on its memory. -/
def IsStateless (s : Equations Float μ) : Prop :=
  ∀ p m m', (s.evaluate p m').1 = (s.evaluate p m).1

variable {s : Equations Float μ} {c : Config}

/-- A run does not read the seed of the configuration, nor its log level. -/
lemma IsRun.noting {p : Progress μ} {run : Run μ} (h : s.IsRun c p run) (seed : Option UInt64)
    (logLevel : Option String) : s.IsRun { c with seed, logLevel } p run := by
  have hround {p d start} {a : Attempt μ} (h : s.IsRound c p d start a) :
      s.IsRound { c with seed, logLevel } p d start a :=
    ⟨h.unspent, h.draw, h.found, h.attempt⟩
  induction h with
  | spent hs => exact .spent hs
  | givenUp hu hd hn => exact .givenUp hu hd hn
  | solved h ho => exact .solved (hround h) ho
  | again h ho _ ih => exact .again (hround h) ho ih

end Equations

namespace Solver

variable {s : Solver μ}

/-- The solver with another seed noted in its configuration, and with other measures. -/
def noting (s : Solver μ) (seed : Option UInt64) (measures : Option Measures) : Solver μ :=
  { s with config := { s.config with seed }, measures }

/-- A solve does not read the seed that is noted, the last measures or the log. -/
lemma solve_noting (h : s.config.IsValid) (seed : Option UInt64) (measures : Option Measures)
    (log log' : Logging) :
    ((s.noting seed measures).solve log').report = (s.solve log).report ∧
      ((s.noting seed measures).solve log').solver =
        (s.solve log).solver.noting seed (s.solve log).solver.measures := by
  have h' : (s.noting seed measures).config.IsValid := { h with }
  have hrun : (s.noting seed measures).run = s.run := (s.isRun.noting seed _).eq
  rw [solve_of_isValid h, solve_of_isValid h', hrun]
  exact ⟨rfl, rfl⟩

/-- Neither the noted seed, nor the last measures, nor the logging before changes what a row of
solves reports. -/
theorem solves_noting (n : ℕ) (h : s.config.IsValid) (seed : Option UInt64)
    (measures : Option Measures) (log log' : Logging) :
    (solves n (s.noting seed measures) log').map (·.report) =
      (solves n s log).map (·.report) := by
  induction n generalizing s measures log log' with
  | zero => rfl
  | succ n ih =>
    obtain ⟨hr, hs⟩ := solve_noting h seed measures log log'
    have hnext : (s.solve log).solver.config.IsValid := by
      rw [s.config_solve log]
      exact h
    rw [solves, solves, List.map_cons, List.map_cons, hr, hs]
    exact congrArg _ (ih hnext _ _ _)

/-- With a stateless system, solves do not read its memory. -/
theorem solves_of_isStateless (h : s.system.IsStateless) (n : ℕ) (memory : μ) (log : Logging) :
    (solves n (s.onto s.system memory) log).map (·.report) = (solves n s log).map (·.report) := by
  have hagrees : Agrees n s log s.system memory :=
    .of_related (R := fun _ _ => True) trivial (fun v _ m m' _ => ⟨h v.point m m', trivial⟩)
      fun _ _ => rfl
  have hreports := congrArg (List.map Prod.fst) hagrees.reports_eq
  rw [reports, reports, List.map_map, List.map_map] at hreports
  exact hreports

end Solver

namespace Solver

/-- The setting starts the random numbers of this seed. -/
inductive Reseeds (seed : UInt64) : Setting → Prop where
  | seed : Reseeds seed (.seed seed)
  | generator : Reseeds seed (.generator (.ofSeed seed))

/-- A setting that reseeds leads to the generator of the seed. -/
lemma Reseeds.generator_eq {seed : UInt64} {setting : Setting} {s t : Solver μ}
    (h : Reseeds seed setting) (ht : s.set setting = .ok t) : t.generator = .ofSeed seed := by
  cases h <;> cases ht <;> rfl

/-- A solver with this seed and a valid configuration reports like one that is made with both. -/
lemma exists_withConfig {s : Solver μ} {seed : UInt64} (hs : s.system.IsStateless)
    (hg : s.generator = .ofSeed seed) (hv : s.config.IsValid) (memory : μ) (entropy : Generator) :
    ∃ t, withConfig s.system memory entropy { s.config with seed := some seed } = .ok t ∧
      ∀ n log log', (solves n t log').map (·.report) = (solves n s log).map (·.report) := by
  have hv' : Config.validate { s.config with seed := some seed } = .ok () :=
    Config.validate_iff.mpr { hv with }
  refine ⟨(s.onto s.system memory).noting (some seed) none, ?_, fun n log log' => ?_⟩
  · rw [withConfig, hv', noting, onto, hg]
    rfl
  · have hnoting := solves_noting (s := s.onto s.system memory) n hv (some seed) none log log'
    exact hnoting.trans (solves_of_isStateless hs n memory log)

end Solver

namespace Session

variable {s t u v : Solver μ} {log log₁ log₂ log₃ : Logging} {settings later : List Setting}
  {solves : List (Solved μ)}

/-- Settings by themselves leave the generator alone, unless they replace it. -/
lemma generator_eq (h : Session s log settings [] t log₁)
    (hs : ∀ setting ∈ settings, setting.replacesGenerator = false) : t.generator = s.generator :=
  (h.samples hs).yields.generator_eq.trans s.generator.skip_zero

/--
After any past, a solver of a stateless system is given a seed, and further settings are made that leave
its generator alone. If what comes out is a valid configuration, then solves from there report the same
as those of a solver that is made with this configuration and the seed.
-/
theorem solves_reseeded {seed : UInt64} {setting : Setting} (hs : s.system.IsStateless)
    (h : Session s log settings solves t log₁) (hr : Solver.Reseeds seed setting)
    (hu : t.set setting = .ok u) (hlater : Session u log₂ later [] v log₃)
    (hg : ∀ setting ∈ later, setting.replacesGenerator = false)
    (hv : v.config.validate = .ok ()) (memory : μ) (entropy : Generator) :
    ∃ w, Solver.withConfig s.system memory entropy { v.config with seed := some seed } = .ok w ∧
      ∀ n log log', (Solver.solves n v log).map (·.report) =
        (Solver.solves n w log').map (·.report) := by
  have hsystem : v.system = s.system := (hlater.system_eq).trans ((h.set hu).system_eq)
  have hgenerator := (hlater.generator_eq hg).trans (hr.generator_eq hu)
  obtain ⟨w, hw, hreports⟩ := Solver.exists_withConfig (hsystem ▸ hs) hgenerator
    (Config.validate_iff.mp hv) memory entropy
  rw [hsystem] at hw
  exact ⟨w, hw, fun n log log' => (hreports n log log').symm⟩

open Solver in
/-- A crossing that was solved, seeded and set up anew goes on like one that is made so. -/
theorem crossing_reseeded :
    ∃ (u v w : Solver Unit) (log : Logging),
      ((crossing once).solve {}).solver.set (.seed 7) = .ok u ∧
      Session u log [.iterationsTotal 2] [] v log ∧
      withConfig (crossing once).system () (.ofSeed 0) { v.config with seed := some 7 } = .ok w ∧
      (Solver.solves 3 v {}).map (·.report) = (Solver.solves 3 w {}).map (·.report) := by
  have hs : (crossing once).system.IsStateless := fun _ _ _ => rfl
  have h : Session (crossing once) {} [] _ _ _ := Session.start.solve
  obtain ⟨u, hu, hc⟩ : ∃ u, ((crossing once).solve {}).solver.set (.seed 7) = .ok u ∧
      u.config = { ((crossing once).solve {}).solver.config with seed := some 7 } :=
    ⟨_, rfl, rfl⟩
  rw [config_solve] at hc
  obtain ⟨v, hset, hc'⟩ : ∃ v, u.set (.iterationsTotal 2) = .ok v ∧
      v.config = { u.config with iterationsTotal := 2 } :=
    ⟨_, rfl, rfl⟩
  have hv : v.config.validate = .ok () := by
    rw [hc', hc]
    exact eq_ok_of_toOption (by decide +kernel)
  have hlater : Session u {} [.iterationsTotal 2] [] v {} := Session.start.set hset
  obtain ⟨w, hw, hreports⟩ := solves_reseeded hs h .seed hu hlater
    (List.forall_mem_singleton.mpr rfl) hv () (.ofSeed 0)
  exact ⟨u, v, w, {}, hu, hlater, hw, hreports 3 {} {}⟩

end Session

end PlanarNewton
