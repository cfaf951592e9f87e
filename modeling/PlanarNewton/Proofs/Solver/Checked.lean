import PlanarNewton.Proofs.Solver.Journal

/-!
# Runs with checks and notes

A solve counts in 64 bits, and it asks the sampler for numbers of a range. Here it is made with every
check that this calls for: a sum that has no 64 bits, a difference below zero and a range that is empty
or of infinite width break the computation off. A loop (`loop?`) is allowed as many turns as its budget
has iterations, and one more to find it spent; a loop that goes on has no result either.

The loops also report, at the moment that there is something to report: in the search for a start, at each
step of an attempt, and after the measures of an attempt are entered. What is done with a record is left
open in them (`note`), and nothing of it comes back. `Solver.tell` is the whole solve, with its counters
moved on one by one and its records written into a journal; `Solver.solve?` is what it answers.
-/

namespace PlanarNewton

variable {μ σ : Type}

namespace Counter

/-- The sum of two counters, if it has 64 bits. -/
def add? (a b : ℕ) : Option ℕ :=
  if a + b < 2 ^ 64 then some (a + b) else none

/-- The difference of two counters, if it is not below zero. -/
def sub? (a b : ℕ) : Option ℕ :=
  if b ≤ a then some (a - b) else none

/-- A sum that has 64 bits passes its check. -/
lemma add?_eq {a b : ℕ} (h : a + b < 2 ^ 64) : add? a b = some (a + b) :=
  if_pos h

/-- A difference that is not below zero passes its check. -/
lemma sub?_eq {a b : ℕ} (h : b ≤ a) : sub? a b = some (a - b) :=
  if_pos h

end Counter

open Counter

/--
Takes turns from a state on until one ends with a result. There is none if a turn breaks off, or if more
turns are needed than are allowed.
-/
def loop? {τ ρ : Type} (turn : τ → Option (τ ⊕ ρ)) : ℕ → τ → Option ρ
  | 0, _ => none
  | turns + 1, x => do
    match ← turn x with
    | .inl y => loop? turn turns y
    | .inr r => return r

section Loop

variable {τ ρ : Type} {turn : τ → Option (τ ⊕ ρ)} {x y : τ} {r : ρ}

/-- A turn that goes on leaves the other turns to the state it leads to. -/
lemma loop?_of_inl (h : turn x = some (.inl y)) (turns : ℕ) :
    loop? turn (turns + 1) x = loop? turn turns y := by
  rw [loop?, h]
  rfl

/-- A turn that ends gives the result. -/
lemma loop?_of_inr (h : turn x = some (.inr r)) (turns : ℕ) :
    loop? turn (turns + 1) x = some r := by
  rw [loop?, h]
  rfl

end Loop

namespace FailureCounts

/-- Counts one more failure, in 64 bits. -/
def record? (f : FailureCounts) : Failure → Option FailureCounts
  | .singular => do return { f with singular := ← add? f.singular 1 }
  | .nonFinite => do return { f with nonFinite := ← add? f.nonFinite 1 }
  | .constraintViolated => do return { f with constraintViolated := ← add? f.constraintViolated 1 }
  | .exhausted => do return { f with exhausted := ← add? f.exhausted 1 }

/-- The failures of all kinds, added up one by one in 64 bits. -/
def total? (f : FailureCounts) : Option ℕ := do
  let n ← add? f.singular f.nonFinite
  let n ← add? n f.constraintViolated
  add? n f.exhausted

end FailureCounts

namespace Measures

/-- The entry of one attempt: first its steps, then what a failure adds to them. -/
def record? (m : Measures) (steps : ℕ) (failure : Option Failure) : Option Measures := do
  let attempts ← add? m.attempts 1
  let total ← add? m.totalIterations steps
  match failure with
  | none => return { m with attempts, iterations := steps, totalIterations := total }
  | some failure =>
    let total ← if steps = 0 then add? total 1 else some total
    let failures ← m.failures.record? failure
    let iterations := if steps = 0 then 1 else steps
    return { m with attempts, iterations, totalIterations := total, failures }

/-- The entry of a sampling that was given up. -/
def recordGiveUp? (m : Measures) : Option Measures := do
  let attempts ← add? m.attempts 1
  let failures ← m.failures.record? .constraintViolated
  return { m with attempts, failures }

end Measures

namespace Generator

/-- A uniform number, unless the range is empty or its width is not finite. -/
def uniform? (g : Generator) (low high : Float) : Option (Float × Generator) :=
  if low < high ∧ (high - low).isFinite = true then
    some (uniform low high g.next.1, g.next.2)
  else none

/-- A point of the box, with the checks of both of its numbers. -/
def point? (g : Generator) (lower upper : Vec2 Float) : Option (Vec2 Float × Generator) := do
  let (x, g) ← g.uniform? lower.x upper.x
  let (y, g) ← g.uniform? lower.y upper.y
  return (⟨x, y⟩, g)

end Generator

/-- An attempt that goes on: where it is, and what it did so far. -/
structure Attempt.Pending (μ : Type) where
  point : Vec2 Float
  memory : μ
  steps : ℕ := 0
  visits : List Visit := []

namespace Equations

/-- Draws one point; a refused one is counted, and the last refusal that is borne is noted. -/
def drawTurn? (s : Equations Float μ) (c : Config) (note : σ → Event → σ) :
    (Measures × Draw) × σ → Option ((Measures × Draw) × σ ⊕ (Measures × Draw) × σ)
  | ((m, d), x) => do
    let (candidate, g) ← d.generator.point? c.lower c.upper
    if s.accepts candidate then
      return .inr ((m, { d with start := some candidate, generator := g }), x)
    else
      let m := { m with rejectedStarts := ← add? m.rejectedStarts 1 }
      let d := { d with refused := d.refused ++ [candidate], generator := g }
      if c.iterationsTotal.toNat ≤ m.rejectedStarts then
        return .inr ((m, d), note x (.samplingGivenUp m.rejectedStarts))
      else
        return .inl ((m, d), x)

/-- The search for a start, with the measures that count its refused points, and what was noted in it. -/
def tellStart? (s : Equations Float μ) (c : Config) (note : σ → Event → σ) (m : Measures)
    (g : Generator) (x : σ) : Option ((Measures × Draw) × σ) :=
  loop? (s.drawTurn? c note) (c.iterationsTotal.toNat + 1) ((m, ⟨[], none, g⟩), x)

/-- Looks at one point, and takes the Newton step from there, which is noted when it begins. -/
def stepTurn? (s : Equations Float μ) (c : Config) (note : σ → Event → σ) (budget : ℕ) :
    Attempt.Pending μ × σ → Option (Attempt.Pending μ × σ ⊕ Attempt μ × σ)
  | (t, x) => do
    let (e, memory) := s.evaluate t.point t.memory
    let visits := t.visits ++ [⟨t.point, e⟩]
    if e.objective.isFinite = false then
      return .inr (⟨visits, t.steps, .failed .nonFinite, memory⟩, x)
    else if e.objective.norm < c.accuracy then
      return .inr (⟨visits, t.steps, .converged t.point e.objective.norm, memory⟩, x)
    else if c.iterationsPerTry.toNat ≤ t.steps ∨ budget ≤ t.steps then
      return .inr (⟨visits, t.steps, .failed .exhausted, memory⟩, x)
    else
      let steps ← add? t.steps 1
      let x := note x (.iteration steps t.point e.objective)
      match s.advance ⟨t.point, e⟩ with
      | .error failure => return .inr (⟨visits, steps, .failed failure, memory⟩, x)
      | .ok next => return .inl (⟨next, memory, steps, visits⟩, x)

/-- The attempt from a start, within what is left of the total budget, and what was noted in it. -/
def tellAttempt? (s : Equations Float μ) (c : Config) (note : σ → Event → σ) (budget : ℕ)
    (start : Vec2 Float) (memory : μ) (x : σ) : Option (Attempt μ × σ) :=
  loop? (s.stepTurn? c note budget) (c.iterationsPerTry.toNat + 1) ({ point := start, memory }, x)

/-- The attempt from a start with all checks, with nothing noted. -/
def attempt? (s : Equations Float μ) (c : Config) (budget : ℕ) (start : Vec2 Float) (memory : μ) :
    Option (Attempt μ) :=
  (s.tellAttempt? c (fun x _ => x) budget start memory ()).map (·.1)

/--
One round of a run, if there are iterations left for it. A failed attempt is noted from the measures after
its entry.
-/
def roundTurn? (s : Equations Float μ) (c : Config) (note : σ → Event → σ) :
    Progress μ × σ → Option (Progress μ × σ ⊕ Run μ × σ)
  | (p, x) => do
    if p.measures.totalIterations < c.iterationsTotal.toNat then
      let ((m, d), x) ← s.tellStart? c note p.measures p.generator x
      match d.start with
      | none =>
        let m ← m.recordGiveUp?
        let p := { p with measures := m, generator := d.generator }
        return .inr (p.unsolved (some d.refused), x)
      | some start =>
        let budget ← sub? c.iterationsTotal.toNat m.totalIterations
        let (a, x) ← s.tellAttempt? c note budget start p.memory x
        let m ← m.record? a.steps a.outcome.failure?
        let p : Progress μ := ⟨m, d.generator, a.memory, d.round start a :: p.rounds⟩
        match a.outcome with
        | .converged q r => return .inr (p.solved q r, x)
        | .failed failure =>
          return .inl (p, note x (.attemptFailed m.attempts start failure m.iterations))
    else
      return .inr (p.unsolved none, x)

/-- The run with all checks, and what was noted in it after `x`. -/
def tellRun? (s : Equations Float μ) (c : Config) (note : σ → Event → σ) (generator : Generator)
    (memory : μ) (x : σ) : Option (Run μ × σ) :=
  loop? (s.roundTurn? c note) (c.iterationsTotal.toNat + 1) ({ generator, memory }, x)

end Equations

namespace Solver

/-- The solve with all checks that makes each record at its moment, and the records that it made. -/
def tell (s : Solver μ) (log : Logging) : Option (Solved μ × List Event) :=
  match s.config.validate with
  | .error e => some (⟨.error e, s, log, none⟩, [])
  | .ok () =>
    match startLogging s.config log with
    | (.error e, log) => some (⟨.error e, s, log, none⟩, [])
    | (.ok (), started) => do
      let (run, j) ← s.system.tellRun? s.config Journal.write s.generator s.memory
        ⟨started, s.startRecords log⟩
      let j := j.write run.lastEvent
      return (⟨run.result, s.after run, j.logging, some run⟩, j.made)

/-- The solve with all checks. -/
def solve? (s : Solver μ) (log : Logging) : Option (Solved μ) :=
  (s.tell log).map (·.1)

end Solver

end PlanarNewton
