import PlanarNewton.Proofs.Solver.Solve

/-!
# Sessions

A session is what can happen to a solver: settings are made and solves are run, in any order and any
number (`Session`). A setting changes the configuration, and two of them the generator
(`Solver.exists_of_set`); a solve changes neither the configuration nor the system. So the system stays
the same through a session (`Session.system_eq`), and the evaluations of all its solves follow each
other in one replay (`Session.replay`).
-/

namespace PlanarNewton

variable {μ : Type}

/-- The setting puts another generator in place. -/
def Setting.replacesGenerator : Setting → Bool
  | .seed _ => true
  | .generator _ => true
  | _ => false

namespace Solved

/-- The rounds of a solve; there are none if it was refused. -/
def rounds (r : Solved μ) : List Round :=
  r.run.elim [] (·.rounds)

/-- The points drawn in a solve, in order. -/
def candidates (r : Solved μ) : List (Vec2 Float) :=
  r.run.elim [] (·.candidates)

/-- The evaluations of the system in a solve, in order. -/
def visits (r : Solved μ) : List Visit :=
  r.run.elim [] (·.visits)

end Solved

/--
From a solver and its logging, settings were made and solves were run in some order. The settings and
the answers of the solves are listed in that order, and the last two arguments are what is left.
-/
inductive Session (s : Solver μ) (log : Logging) :
    List Setting → List (Solved μ) → Solver μ → Logging → Prop where
  | start : Session s log [] [] s log
  | set {settings solves t log' setting t'} (h : Session s log settings solves t log')
      (ht : t.set setting = .ok t') : Session s log (settings ++ [setting]) solves t' log'
  | solve {settings solves t log'} (h : Session s log settings solves t log') :
    Session s log settings (solves ++ [t.solve log']) (t.solve log').solver (t.solve log').logging

namespace Solver

/-- A setting that is accepted changes the configuration and, if it replaces it, the generator. -/
lemma exists_of_set {s t : Solver μ} {setting : Setting} (h : s.set setting = .ok t) :
    ∃ c g, t = { s with config := c, generator := g } ∧
      (setting.replacesGenerator = false → g = s.generator) := by
  cases setting with
  | seed | generator =>
    cases h
    exact ⟨_, _, rfl, nofun⟩
  | budgets =>
    obtain ⟨_, -, h⟩ := bind_eq_ok.mp h
    obtain ⟨_, -, h⟩ := bind_eq_ok.mp h
    obtain ⟨_, -, h⟩ := bind_eq_ok.mp h
    cases h
    exact ⟨_, _, rfl, fun _ => rfl⟩
  | accuracy | iterationsPerTry | iterationsTotal | searchRange | logLevel =>
    obtain ⟨_, -, h⟩ := bind_eq_ok.mp h
    cases h
    exact ⟨_, _, rfl, fun _ => rfl⟩

/-- The evaluations of a solve are what the system answers at their points, in order. -/
lemma replay_solve (s : Solver μ) (log : Logging) :
    s.system.replay ((s.solve log).visits.map (·.point)) s.memory =
      ((s.solve log).visits, (s.solve log).solver.memory) := by
  obtain ⟨e, -, h⟩ | ⟨-, h⟩ := s.solve_cases log
  · rw [h]
    rfl
  · rw [h]
    exact s.replay_run

end Solver

namespace Session

variable {s t : Solver μ} {log log' : Logging} {settings : List Setting} {solves : List (Solved μ)}

/-- A session does not change the system. -/
lemma system_eq (h : Session s log settings solves t log') : t.system = s.system := by
  induction h with
  | start => rfl
  | set _ ht ih =>
    obtain ⟨_, _, rfl, -⟩ := Solver.exists_of_set ht
    exact ih
  | @solve _ _ t log' _ ih => exact (t.system_solve log').trans ih

/-- The evaluations of a session are what the system answers at their points, in order. -/
theorem replay (h : Session s log settings solves t log') :
    s.system.replay ((solves.flatMap (·.visits)).map (·.point)) s.memory =
      (solves.flatMap (·.visits), t.memory) := by
  induction h with
  | start => rfl
  | set _ ht ih =>
    obtain ⟨_, _, rfl, -⟩ := Solver.exists_of_set ht
    exact ih
  | @solve _ solves t log' h ih =>
    have hs := h.system_eq ▸ t.replay_solve log'
    rw [List.flatMap_append, List.flatMap_singleton, List.map_append, Equations.replay_append, ih,
      hs]

/-- What every solve of a solver with this system does, each solve of the session does. -/
lemma forall_solves {P : Solved μ → Prop}
    (hP : ∀ (t : Solver μ) log, t.system = s.system → P (t.solve log))
    (h : Session s log settings solves t log') : ∀ r ∈ solves, P r := by
  induction h with
  | start => exact List.forall_mem_nil _
  | set _ _ ih => exact ih
  | @solve _ _ t log' h ih =>
    intro r hr
    rcases List.mem_append.mp hr with hr | hr
    · exact ih r hr
    · obtain rfl := List.mem_singleton.mp hr
      exact hP t log' h.system_eq

open Solver in
/-- The crossing can be solved twice, the second time with more iterations. -/
lemma exists_twice :
    ∃ solves t log, Session (crossing once) {} [.iterationsTotal 2] solves t log ∧
      solves.length = 2 ∧ ∃ r ∈ solves, r.result = .ok ⟨2.0, 1.0⟩ := by
  have hq := result_of_run isValid_once crossing_once {}
  have h : Session (crossing once) {} [] _ _ _ := Session.start.solve
  obtain ⟨t, ht⟩ : ∃ t, ((crossing once).solve {}).solver.set (.iterationsTotal 2) = .ok t :=
    ⟨_, rfl⟩
  exact ⟨_, _, _, (h.set ht).solve, rfl, _, List.mem_cons_self, hq⟩

end Session

end PlanarNewton
