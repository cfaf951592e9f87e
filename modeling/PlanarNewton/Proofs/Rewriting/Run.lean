import PlanarNewton.Proofs.Rewriting.Step

/-!
# Runs of rewritten equations

Rewritten equations are evaluated alike, so rewriting them changes nothing in any sequence of solves
(`Solver.solves_rewrite`). Where the derivatives are estimated from the rewritten objectives, the
Jacobian is rewritten up to the signs of zeros (`Equations.value_centralDifference_neg`), and that is
enough.
-/

namespace PlanarNewton
open Binary64

variable {μ : Type}

namespace Equations

/-- The system with its equations rewritten. -/
def rewrite (s : Equations Float μ) (r : Rewriting) : Equations Float μ where
  evaluate p m := (r.evaluation (s.evaluate p m).1, (s.evaluate p m).2)
  constraints := s.constraints

/-- A rewritten system is solved alike. -/
lemma alike_rewrite (s : Equations Float μ) (r : Rewriting) : s.Alike (s.rewrite r) where
  evaluate p m := (r.rewrites_evaluation (s.evaluate p m).1).alike
  memory _ _ := rfl
  accepts _ := rfl

/-- Two objectives with estimated derivatives, under so many constraints. -/
def numerical (step : Float) (f g : Vec2 Float → Float) (constraints : List (Vec2 Float → Bool)) :
    Equations Float μ :=
  { ofObjectives step f g with constraints }

/-- An estimated derivative is negated with its function, also where the step is zero. -/
lemma value_centralDifference_neg (axis : Axis) (step : Float) (f : Vec2 Float → Float)
    (p : Vec2 Float) : value (centralDifference axis step (fun p => -f p) p) =
      (value (centralDifference axis step f p)).neg := by
  apply value_div_of_neg
  rw [value_sub, value_sub, value_neg, value_neg, Value.neg_add]

variable (step : Float) (f g : Vec2 Float → Float) (constraints : List (Vec2 Float → Bool))

/-- With estimated derivatives, a system is solved like the one with both equations exchanged. -/
lemma alike_exchange : (numerical (μ := μ) step f g constraints).Alike
    (numerical step g f constraints) :=
  alike_rewrite _ .exchange

/-- With estimated derivatives, a system is solved like the one with its first equation negated. -/
lemma alike_negateFirst : (numerical (μ := μ) step f g constraints).Alike
    (numerical step (fun p => -f p) g constraints) where
  evaluate p m := by
    refine @Rewriting.Rewrites.alike .negateFirst _ _ ⟨rfl, ?_⟩
    exact congrArg₂ (Mat2.mk · · _ _) (value_centralDifference_neg .x step f p)
      (value_centralDifference_neg .y step f p)
  memory _ _ := rfl
  accepts _ := rfl

/-- With estimated derivatives, a system is solved like the one with its second equation negated. -/
lemma alike_negateSecond : (numerical (μ := μ) step f g constraints).Alike
    (numerical step f (fun p => -g p) constraints) where
  evaluate p m := by
    refine @Rewriting.Rewrites.alike .negateSecond _ _ ⟨rfl, ?_⟩
    exact congrArg₂ (Mat2.mk _ _) (value_centralDifference_neg .x step g p)
      (value_centralDifference_neg .y step g p)
  memory _ _ := rfl
  accepts _ := rfl

end Equations

/--
Rewriting the equations of a system changes nothing in any sequence of solves, whether the rows of the
Jacobian are rewritten alongside or estimated from the rewritten objectives.
-/
theorem Solver.solves_rewrite (s : Solver μ) (n : ℕ) (log : Logging) :
    (∀ r, (solves n (s.withSystem (s.system.rewrite r)) log).map (·.outline) =
      (solves n s log).map (·.outline)) ∧
    ∀ step f g constraints,
      let outlines (f g : Vec2 Float → Float) : List (Solved.Outline μ) :=
        (solves n (s.withSystem (.numerical step f g constraints)) log).map (·.outline)
      outlines g f = outlines f g ∧ outlines (fun p => -f p) g = outlines f g ∧
        outlines f (fun p => -g p) = outlines f g := by
  constructor
  · intro r
    exact solves_withSystem (s.system.alike_rewrite r) n log log
  · intro step f g constraints
    have h {t t' : Equations Float μ} (ht : t.Alike t') :
        (solves n (s.withSystem t') log).map (·.outline) =
          (solves n (s.withSystem t) log).map (·.outline) :=
      @solves_withSystem _ (s.withSystem t) t' ht n log log
    refine ⟨?_, ?_, ?_⟩
    · exact h (Equations.alike_exchange step f g constraints)
    · exact h (Equations.alike_negateFirst step f g constraints)
    · exact h (Equations.alike_negateSecond step f g constraints)

end PlanarNewton
