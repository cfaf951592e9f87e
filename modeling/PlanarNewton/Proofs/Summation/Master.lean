import PlanarNewton.Proofs.Solver.Domain
import PlanarNewton.Proofs.Solver.Observation
import PlanarNewton.Proofs.Summation.Domain

/-!
# The master function

The master function and the six closed forms ask for the same values of the polygamma functions, and
where one of these is missing, both have none (`Summation.closed?_eq`). A solve that gets to such a point
does not return (`Solver.Returns`), so it makes no difference what a system is said to answer there: two
systems that complete the same function make the same solves, as long as these return
(`Solver.reports_of_completes`). Hence the two forms of the summation system are solved alike
(`Summation.master_closed`), and in the domain their solves always return
(`Summation.returns_withDomain`).
-/

namespace PlanarNewton

variable {μ ν : Type}

/-- The system finds what the function gives, wherever it gives something. -/
def Equations.Completes (t : Equations Float μ) (f : Vec2 Float → Option (Evaluation Float)) : Prop :=
  ∀ p m e, f p = some e → (t.evaluate p m).1 = e

namespace Solver

variable {s : Solver μ} {t : Equations Float ν} {m : ν} {n : ℕ} {log : Logging}
  {f : Vec2 Float → Option (Evaluation Float)}

/-- So many solves return: the function gives something at every point that they visit. -/
def Returns (f : Vec2 Float → Option (Evaluation Float)) (n : ℕ) (s : Solver μ) (log : Logging) :
    Prop :=
  ∀ v ∈ visited n s log, (f v.point).isSome

/-- What solves visit is part of what they show. -/
lemma visited_eq (n : ℕ) (s : Solver μ) (log : Logging) :
    visited n s log = (reports n s log).flatMap fun r => r.1.run.elim [] (·.visits) := by
  have hvisits (r : Solved μ) : r.visits = r.report.run.elim [] (·.visits) := by
    rw [Solved.report, Option.elim_map]
    rfl
  rw [visited, reports, List.flatMap_map]
  exact congrArg (List.flatMap · _) (funext hvisits)

/-- So many solves visit points of the domain only. -/
lemma admits_visited (n : ℕ) (s : Solver μ) (log : Logging) :
    ∀ v ∈ visited n s log, s.system.Admits v.point := by
  induction n generalizing s log with
  | zero => exact List.forall_mem_nil _
  | succ n ih =>
    have hrest := ih (s.solve log).solver (s.solve log).logging
    rw [s.system_solve] at hrest
    refine List.forall_mem_append.mpr ⟨?_, hrest⟩
    intro v hv
    change v ∈ (s.solve log).visits at hv
    rw [Solved.visits_eq] at hv
    obtain ⟨round, hround, hv⟩ := List.mem_flatMap.mp hv
    exact (s.isPath_solve log round hround).admits v hv

/-- Two systems that complete one function make the same solves, as long as these return. -/
theorem reports_of_completes (hs : s.system.Completes f) (ht : t.Completes f)
    (hc : t.accepts = s.system.accepts) (h : Returns f n s log) :
    reports n (s.onto t m) log = reports n s log ∧ Returns f n (s.onto t m) log := by
  have hagrees : Agrees n s log t m := by
    refine .of_related (R := fun _ _ => True) trivial (fun v hv m n _ => ⟨?_, trivial⟩) fun q _ => ?_
    · obtain ⟨e, he⟩ := Option.isSome_iff_exists.mp (h v hv)
      rw [ht _ _ _ he, hs _ _ _ he]
    · exact congrFun hc q
  refine ⟨hagrees.reports_eq, ?_⟩
  rw [Returns, visited_eq, hagrees.reports_eq, ← visited_eq]
  exact h

end Solver

namespace Summation
open Binary64 Polygamma Solver

/-- All evaluations of the recurrence that the six closed forms make, one form after another. -/
def closed? (p : Vec2 Float) : Option (Evaluation Float) := do
  let f ← objective1Closed? p
  let g ← objective2Closed? p
  let fx ← derivative11Closed? p
  let fy ← derivative12Closed? p
  let gx ← centralDifference? .x Difference.defaultStep objective2Closed? p
  let gy ← centralDifference? .y Difference.defaultStep objective2Closed? p
  return ⟨⟨f, g⟩, ⟨fx, fy, gx, gy⟩⟩

/-- The closed forms have a value where the master function has one, and it is the same. -/
theorem closed?_eq (p : Vec2 Float) : closed? p = master? p := by
  rw [master?_eq]
  simp only [closed?, objective1Closed?_eq, objective2Closed?_eq, derivative11Closed?_eq,
    derivative12Closed?_eq, centralDifference?_eq, bind_ite, ← ite_or]
  refine if_congr ?_ rfl rfl
  simp only [stencil, List.exists_mem_cons_iff, List.not_mem_nil, false_and, exists_false, or_false]
  simp only [or_assoc, or_left_comm, or_self_left]

/-- The master function completes its evaluation with checks. -/
lemma completes_master : (masterSystem : Equations Float μ).Completes master? := by
  intro p m e he
  rw [master?_eq] at he
  split at he
  · cases he
  · exact Option.some.inj he

/-- In its domain, all solves by the master function return. -/
theorem returns_withDomain {s : Solver μ} {t : Equations Float μ} (h : s.system = withDomain t)
    (n : ℕ) (log : Logging) : Returns master? n s log := by
  intro v hv
  obtain ⟨hf, hc⟩ := admits_visited n s log v hv
  rw [h] at hc
  have hx := hc (fun p => p.x > -1.0) (List.mem_append_left _ (List.mem_append_right _ (.head _)))
  have hxy := hc (fun p => p.x + p.y > -1.0) (List.mem_append_right _ (.head _))
  exact isSome_master? hf (of_decide_eq_true hx) (of_decide_eq_true hxy)

/--
The master function has a value exactly where all six closed forms have one, and it consists of theirs,
to the last bit. So a solve by a system that finds what the master function gives returns exactly if a
solve by one that finds what the closed forms give does, whatever the two answer where there is no value;
and if they return, their reports and their logs are the same, any number of solves long. With NaN in the
place of missing values, the two systems are one.
-/
theorem master_closed :
    (∀ p, closed? p = master? p) ∧
    (∀ p e, master? p = some e →
      (objective1Closed? p = some e.objective.x ∧ objective2Closed? p = some e.objective.y ∧
        derivative11Closed? p = some e.jacobian.a ∧ derivative12Closed? p = some e.jacobian.b ∧
        centralDifference? .x Difference.defaultStep objective2Closed? p = some e.jacobian.c ∧
        centralDifference? .y Difference.defaultStep objective2Closed? p = some e.jacobian.d) ∧
      e = master p ∧ e = ⟨⟨objective1Closed p, objective2Closed p⟩,
        ⟨derivative11Closed p, derivative12Closed p,
          centralDifference .x Difference.defaultStep objective2Closed p,
          centralDifference .y Difference.defaultStep objective2Closed p⟩⟩) ∧
    (∀ {μ ν : Type} (s : Solver μ) (t : Equations Float ν) (m : ν) (n : ℕ) (log : Logging),
      s.system.Completes master? → t.Completes closed? → t.accepts = s.system.accepts →
      (Returns master? n s log ↔ Returns closed? n (s.onto t m) log) ∧
      (Returns master? n s log → reports n (s.onto t m) log = reports n s log)) ∧
    ∀ {μ : Type} (s : Solver μ) (constraints : List (Vec2 Float → Bool)) (n : ℕ) (log : Logging),
      reports n (s.withSystem { masterSystem with constraints }) log =
        reports n (s.withSystem { closedSystem with constraints }) log := by
  refine ⟨closed?_eq, ?_, ?_, ?_⟩
  · intro p e he
    have hmaster : e = master p := (completes_master p () e he).symm
    refine ⟨?_, hmaster, hmaster⟩
    simp only [← closed?_eq, closed?, Option.bind_eq_bind, Option.bind_eq_some_iff, Option.pure_def,
      Option.some.injEq] at he
    obtain ⟨f, hf, g, hg, fx, hfx, fy, hfy, gx, hgx, gy, hgy, rfl⟩ := he
    exact ⟨hf, hg, hfx, hfy, hgx, hgy⟩
  · intro μ ν s t m n log hs ht hc
    rw [funext closed?_eq] at ht ⊢
    refine ⟨⟨fun h => (reports_of_completes hs ht hc h).2, fun h => ?_⟩, fun h =>
      (reports_of_completes hs ht hc h).1⟩
    -- Put back onto its own system, the solver is the one it was.
    have hback : Returns master? n ((s.onto t m).onto s.system s.memory) log :=
      (reports_of_completes ht hs hc.symm h).2
    exact hback
  · intro μ s constraints n log
    have hsystem : (masterSystem : Equations Float μ) = closedSystem := rfl
    rw [hsystem]

/-- Solves the master function in its domain, from starts around the solution. -/
def masterSolver : Solver Unit where
  system := withDomain masterSystem
  memory := ()
  config := { lower := ⟨9000.0, 0.0⟩, upper := ⟨11000.0, 1.0⟩ }
  generator := .ofSeed 1

/-- The closed forms in one function that counts its calls, and is zero where they have no value. -/
def countedClosed : Equations Float ℕ :=
  withDomain (.ofCombined fun p count =>
    ((closed? p).getD ⟨⟨0.0, 0.0⟩, ⟨0.0, 0.0, 0.0, 0.0⟩⟩, count + 1))

/-- The master function and the counted closed forms are solved alike, since they keep to the domain. -/
theorem master_closed_domain :
    (∃ e, master? ⟨10000.0, 0.01⟩ = some e ∧
      objective1Closed? ⟨10000.0, 0.01⟩ = some e.objective.x) ∧
    (masterSolver.system.drawStart masterSolver.config.lower masterSolver.config.upper 1
      masterSolver.generator).start.isSome = true ∧
    Returns closed? 2 (masterSolver.onto countedClosed 0) {} ∧
    reports 2 (masterSolver.onto countedClosed 0) {} = reports 2 masterSolver {} := by
  have hisSome : (master? ⟨10000.0, 0.01⟩).isSome :=
    isSome_master? (by decide +kernel) (by decide +kernel) (by decide +kernel)
  obtain ⟨e, he⟩ := Option.isSome_iff_exists.mp hisSome
  have hmaster : masterSolver.system.Completes master? := completes_master
  have hclosed : countedClosed.Completes closed? := by
    intro p m e he
    show (closed? p).getD _ = e
    rw [he, Option.getD_some]
  obtain ⟨-, hvalue, hsolves, -⟩ := master_closed
  obtain ⟨hiff, hreports⟩ := hsolves masterSolver countedClosed 0 2 {} hmaster hclosed rfl
  have hreturns : Returns master? 2 masterSolver {} := returns_withDomain rfl 2 {}
  exact ⟨⟨e, he, (hvalue _ _ he).1.1⟩, by decide +kernel, hiff.mp hreturns, hreports hreturns⟩

end Summation

end PlanarNewton
