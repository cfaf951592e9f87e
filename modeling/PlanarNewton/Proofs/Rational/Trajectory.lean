import PlanarNewton.Equations
import Mathlib.Tactic

/-!
# Newton's method in exact arithmetic

The points of Newton's method from a start, in the arithmetic of any scalar (`Equations.trajectory`). On
rationals the scalar operations are those of the ordered field, so that only a determinant that is small
beside its two products counts as noise (`Mat2.isSingular_iff_le`), and Cramer's rule answers for all
other matrices. Where each step is known, a trajectory is an iteration (`Equations.trajectory_eq`).
-/

namespace PlanarNewton

namespace Scalar

/-- The absolute value of the rationals. -/
lemma abs_rat (x : ℚ) : Scalar.abs x = |x| := by
  rw [Rat.abs_def, ← Rat.mkRat_eq_divInt]
  rfl

/-- The larger of two rationals is their maximum. -/
lemma larger_rat (x y : ℚ) : Scalar.larger x y = max x y := by
  rw [max_def_lt]
  rfl

/-- The comparison of the rationals. -/
lemma le_rat {x y : ℚ} : Scalar.le x y = true ↔ x ≤ y := by
  show (!y.blt x) = true ↔ y.blt x = false
  rw [Bool.not_eq_true']

/-- The gap above one, as a rational number. -/
lemma epsilon_rat : (Scalar.epsilon : ℚ) = 2⁻¹ ^ 52 := by
  show mkRat 1 4503599627370496 = _
  norm_num [Rat.mkRat_eq_div]

end Scalar

namespace Mat2

variable {n : Mat2 ℚ}

/-- A rational matrix counts as singular if its determinant is small beside the products. -/
lemma isSingular_iff_le :
    n.isSingular = true ↔ |n.det| ≤ 2⁻¹ ^ 52 * max |n.a * n.d| |n.b * n.c| := by
  rw [← Scalar.abs_rat, ← Scalar.abs_rat, ← Scalar.abs_rat, ← Scalar.larger_rat, ← Scalar.epsilon_rat,
    ← Scalar.le_rat]
  rfl

/-- A rational matrix that does not count as singular is solved by Cramer's rule. -/
lemma solve_rat (h : n.isSingular = false) (s : Vec2 ℚ) : n.solve s = some (n.cramer s) := by
  rw [solve, h]
  rfl

end Mat2

namespace Equations

section

variable {α : Type} [Scalar α]

/-- The point that the Newton step from a point leads to, if there is a step. -/
def stepFrom (s : Equations α Unit) (p : Vec2 α) : Option (Vec2 α) :=
  (s.evaluate p ()).1.step.map (p + ·)

/-- The points of Newton's method from a start by their indices. -/
def trajectory (s : Equations α Unit) (start : Vec2 α) : ℕ → Option (Vec2 α)
  | 0 => some start
  | k + 1 => (s.trajectory start k).bind s.stepFrom

variable {s : Equations α Unit} {next : Vec2 α → Vec2 α} {P : Vec2 α → Prop}

/-- From points at which each step is `next`, a trajectory consists of the iterates of `next`. -/
theorem trajectory_eq (hstep : ∀ p, P p → s.stepFrom p = some (next p))
    (hnext : ∀ p, P p → P (next p)) {start : Vec2 α} (h : P start) (k : ℕ) :
    s.trajectory start k = some (next^[k] start) ∧ P (next^[k] start) := by
  induction k with
  | zero => exact ⟨rfl, h⟩
  | succ k ih =>
    obtain ⟨heq, hk⟩ := ih
    rw [Function.iterate_succ_apply']
    refine ⟨?_, hnext _ hk⟩
    rw [trajectory, heq]
    exact hstep _ hk

end

end Equations

end PlanarNewton
