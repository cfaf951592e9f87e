import PlanarNewton.Proofs.Rational.Quadratics
import PlanarNewton.Proofs.Sampling.Line

/-!
# Central differences in exact arithmetic

For a polynomial of degree three along an axis, the central difference is the derivative and the square of
the step times the leading coefficient (`centralDifference_cubic`); what the function does across the axis
does not matter. A polynomial of the plane is one in each coordinate when the other is held fixed
(`along`), with the partial derivative as its derivative (`derivative_along`). So for two objectives that
are at most quadratic in each coordinate, estimating the derivatives gives the very system that has them
(`ofObjectives_eq`), and Newton's method takes the same points. Main statement: `centralDifference_exact`.
-/

namespace PlanarNewton

open Polynomial

namespace Axis

variable {axis : Axis} {p : Vec2 ℚ} {h : ℚ}

/-- A shift moves the coordinate of the axis up. -/
lemma coordinate_shift : axis.coordinate (axis.shift p h) = axis.coordinate p + h := by
  cases axis <;> rfl

/-- A shift back moves the coordinate of the axis down. -/
lemma coordinate_shiftBack : axis.coordinate (axis.shiftBack p h) = axis.coordinate p - h := by
  cases axis <;> rfl

/-- A shift leaves the other coordinate. -/
lemma otherCoordinate_shift : axis.otherCoordinate (axis.shift p h) = axis.otherCoordinate p := by
  cases axis <;> rfl

/-- A shift back leaves the other coordinate. -/
lemma otherCoordinate_shiftBack :
    axis.otherCoordinate (axis.shiftBack p h) = axis.otherCoordinate p := by
  cases axis <;> rfl

end Axis

/-- Over the rationals, the difference quotient is the one of analysis. -/
lemma centralDifference_rat (axis : Axis) (h : ℚ) (f : Vec2 ℚ → ℚ) (p : Vec2 ℚ) :
    centralDifference axis h f p = (f (axis.shift p h) - f (axis.shiftBack p h)) / (2 * h) := rfl

/-- The difference quotient of a cubic. -/
lemma difference_cubic {P : ℚ[X]} (hP : P.natDegree ≤ 3) {h : ℚ} (hh : h ≠ 0) (t : ℚ) :
    (P.eval (t + h) - P.eval (t - h)) / (2 * h) = P.derivative.eval t + h ^ 2 * P.coeff 3 := by
  have hlt : P.natDegree < 4 := Nat.lt_succ_of_le hP
  rw [div_eq_iff (by positivity), derivative_eval, sum_over_range' P (by simp) 4 hlt,
    eval_eq_sum_range' hlt, eval_eq_sum_range' hlt]
  simp only [Finset.sum_range_succ, Finset.sum_range_zero]
  push_cast
  ring

/-- Along an axis, the difference of a cubic exceeds the derivative by the square of the step times its
leading coefficient. The coefficients may depend on the other coordinate in any way. -/
theorem centralDifference_cubic (axis : Axis) {P : ℚ → ℚ[X]} (p : Vec2 ℚ)
    (hP : (P (axis.otherCoordinate p)).natDegree ≤ 3) {h : ℚ} (hh : h ≠ 0) :
    centralDifference axis h
        (fun q => (P (axis.otherCoordinate q)).eval (axis.coordinate q)) p =
      (P (axis.otherCoordinate p)).derivative.eval (axis.coordinate p) +
        h ^ 2 * (P (axis.otherCoordinate p)).coeff 3 := by
  rw [centralDifference_rat, axis.otherCoordinate_shift, axis.otherCoordinate_shiftBack,
    axis.coordinate_shift, axis.coordinate_shiftBack, difference_cubic hP hh]

/-- The value of a polynomial at a point of the plane. -/
noncomputable def evalAt (F : MvPolynomial Axis ℚ) (p : Vec2 ℚ) : ℚ :=
  F.eval (·.coordinate p)

/-- The polynomial in one coordinate that is left when the other has the given value. -/
noncomputable def along (axis : Axis) (F : MvPolynomial Axis ℚ) (c : ℚ) : ℚ[X] :=
  F.aeval fun i => if i = axis then X else C c

section Along

variable {axis : Axis} {F : MvPolynomial Axis ℚ} {c : ℚ}

/-- The value of a polynomial is that along an axis, with the other coordinate for a constant. -/
lemma evalAt_eq_along (axis : Axis) (F : MvPolynomial Axis ℚ) (q : Vec2 ℚ) :
    evalAt F q = (along axis F (axis.otherCoordinate q)).eval (axis.coordinate q) := by
  induction F using MvPolynomial.induction_on with
  | C a => simp [evalAt, along]
  | add F G hF hG =>
    simp only [evalAt, along, map_add, eval_add] at hF hG ⊢
    rw [hF, hG]
  | mul_X F i hF =>
    simp only [evalAt, along, map_mul, eval_mul, MvPolynomial.eval_X, MvPolynomial.aeval_X] at hF ⊢
    rw [hF]
    congr 1
    cases axis <;> cases i <;> simp [Axis.coordinate, Axis.otherCoordinate]

/-- The derivative along an axis is the partial derivative. -/
lemma derivative_along : (along axis F c).derivative = along axis (MvPolynomial.pderiv axis F) c := by
  induction F using MvPolynomial.induction_on with
  | C a => simp [along]
  | add F G hF hG =>
    simp only [along, map_add] at hF hG ⊢
    rw [hF, hG]
  | mul_X F i hF =>
    simp only [along, map_mul, derivative_mul, MvPolynomial.pderiv_mul, MvPolynomial.aeval_X,
      MvPolynomial.pderiv_X, map_add] at hF ⊢
    rw [hF]
    by_cases hi : i = axis
    · subst hi
      simp
    · simp [hi]

/-- Along an axis, a polynomial has its degree in that coordinate at most. -/
lemma natDegree_along_le : (along axis F c).natDegree ≤ F.degreeOf axis := by
  rw [along, MvPolynomial.aeval_def, MvPolynomial.eval₂_eq]
  refine natDegree_sum_le_of_forall_le _ _ fun d hd => ?_
  calc (algebraMap ℚ ℚ[X] (F.coeff d) * ∏ i ∈ d.support, (if i = axis then X else C c) ^ d i).natDegree
      ≤ (∏ i ∈ d.support, (if i = axis then X else C c) ^ d i).natDegree := natDegree_C_mul_le _ _
    _ ≤ ∑ i ∈ d.support, ((if i = axis then X else C c : ℚ[X]) ^ d i).natDegree :=
      natDegree_prod_le _ _
    _ ≤ ∑ i ∈ d.support, if i = axis then d i else 0 := by
      gcongr with i
      split
      · rw [natDegree_X_pow]
      · rw [← C_pow, natDegree_C]
    _ ≤ d axis := by
      rw [Finset.sum_ite_eq']
      split
      · exact le_rfl
      · exact Nat.zero_le _
    _ ≤ F.degreeOf axis := MvPolynomial.monomial_le_degreeOf axis hd

end Along

/-- The difference of a polynomial that is at most quadratic along the axis is its partial derivative. -/
theorem centralDifference_quadratic {axis : Axis} {F : MvPolynomial Axis ℚ}
    (hF : F.degreeOf axis ≤ 2) {h : ℚ} (hh : h ≠ 0) :
    centralDifference axis h (evalAt F) = evalAt (MvPolynomial.pderiv axis F) := by
  funext p
  have hdegree : (along axis F (axis.otherCoordinate p)).natDegree < 3 :=
    Nat.lt_succ_of_le (natDegree_along_le.trans hF)
  have hcubic := centralDifference_cubic axis p hdegree.le hh
  rw [funext (evalAt_eq_along axis F), hcubic, coeff_eq_zero_of_natDegree_lt hdegree, mul_zero,
    add_zero, derivative_along, ← evalAt_eq_along]

/-- The system of two polynomials with their partial derivatives. -/
noncomputable def polynomialEquations {μ : Type} (F G : MvPolynomial Axis ℚ) : Equations ℚ μ :=
  .ofDerivatives (evalAt F) (evalAt G) (evalAt (MvPolynomial.pderiv .x F))
    (evalAt (MvPolynomial.pderiv .y F)) (evalAt (MvPolynomial.pderiv .x G))
    (evalAt (MvPolynomial.pderiv .y G))

/-- With estimated derivatives, polynomials that are at most quadratic in each coordinate give the same
system. -/
theorem ofObjectives_eq {μ : Type} {F G : MvPolynomial Axis ℚ} (hF : ∀ axis, F.degreeOf axis ≤ 2)
    (hG : ∀ axis, G.degreeOf axis ≤ 2) {h : ℚ} (hh : h ≠ 0) :
    (Equations.ofObjectives h (evalAt F) (evalAt G) : Equations ℚ μ) = polynomialEquations F G := by
  rw [Equations.ofObjectives, centralDifference_quadratic (hF .x) hh,
    centralDifference_quadratic (hF .y) hh, centralDifference_quadratic (hG .x) hh,
    centralDifference_quadratic (hG .y) hh]
  rfl

/--
Central differences of polynomials in exact arithmetic, for every step. A cubic along an axis, whose
coefficients are any functions of the other coordinate, is differentiated up to the square of the step times
its leading coefficient. Two objectives that are at most quadratic in each coordinate get their Jacobian, and
Newton's method takes the same points from every start as with their derivatives.
-/
theorem centralDifference_exact {h : ℚ} (hh : 0 < h) :
    (∀ (axis : Axis) (P : ℚ → ℚ[X]), (∀ c, (P c).natDegree ≤ 3) → ∀ p : Vec2 ℚ,
      centralDifference axis h
          (fun q => (P (axis.otherCoordinate q)).eval (axis.coordinate q)) p =
        (P (axis.otherCoordinate p)).derivative.eval (axis.coordinate p) +
          h ^ 2 * (P (axis.otherCoordinate p)).coeff 3) ∧
    ∀ F G : MvPolynomial Axis ℚ, (∀ axis, F.degreeOf axis ≤ 2) → (∀ axis, G.degreeOf axis ≤ 2) →
      (∀ p, ((Equations.ofObjectives h (evalAt F) (evalAt G)).evaluate p ()).1.jacobian =
        ⟨evalAt (MvPolynomial.pderiv .x F) p, evalAt (MvPolynomial.pderiv .y F) p,
          evalAt (MvPolynomial.pderiv .x G) p, evalAt (MvPolynomial.pderiv .y G) p⟩) ∧
      ∀ start k, (Equations.ofObjectives h (evalAt F) (evalAt G)).trajectory start k =
        (polynomialEquations F G).trajectory start k := by
  refine ⟨fun axis P hP p => centralDifference_cubic axis p (hP _) hh.ne', fun F G hF hG => ?_⟩
  rw [ofObjectives_eq hF hG hh.ne']
  exact ⟨fun p => rfl, fun start k => rfl⟩

namespace Showcase

/-- The polynomial `a * x² + b * y² + c`. -/
noncomputable def conic (a b c : ℚ) : MvPolynomial Axis ℚ :=
  .C a * .X .x ^ 2 + .C b * .X .y ^ 2 + .C c

/-- A conic has degree two in each coordinate. -/
lemma degreeOf_conic_le (a b c : ℚ) (axis : Axis) : (conic a b c).degreeOf axis ≤ 2 := by
  have hterm (d : ℚ) (i : Axis) :
      (MvPolynomial.C d * MvPolynomial.X i ^ 2 : MvPolynomial Axis ℚ).degreeOf axis ≤ 2 := by
    refine (MvPolynomial.degreeOf_C_mul_le _ _ _).trans ((MvPolynomial.degreeOf_pow_le _ _ _).trans ?_)
    rw [MvPolynomial.degreeOf_X]
    split <;> decide
  refine (MvPolynomial.degreeOf_add_le _ _ _).trans (max_le ?_ ?_)
  · exact (MvPolynomial.degreeOf_add_le _ _ _).trans (max_le (hterm a .x) (hterm b .y))
  · rw [MvPolynomial.degreeOf_C]
    exact Nat.zero_le 2

/-- The value of a conic. -/
lemma evalAt_conic (a b c : ℚ) (p : Vec2 ℚ) :
    evalAt (conic a b c) p = a * p.x ^ 2 + b * p.y ^ 2 + c := by
  simp [evalAt, conic, Axis.coordinate]

/-- The first polynomial of the example is a conic. -/
lemma quadratic1_eq : quadratic1 = evalAt (conic 3 2 (-35)) := by
  funext p
  rw [quadratic1_rat, evalAt_conic]
  ring

/-- The second polynomial of the example is a conic. -/
lemma quadratic2_eq : quadratic2 = evalAt (conic 4 (-3) (-24)) := by
  funext p
  rw [quadratic2_rat, evalAt_conic]
  ring

/-- The partial derivatives of a conic. -/
lemma evalAt_pderiv_conic (a b c : ℚ) (p : Vec2 ℚ) :
    evalAt (MvPolynomial.pderiv .x (conic a b c)) p = 2 * a * p.x ∧
      evalAt (MvPolynomial.pderiv .y (conic a b c)) p = 2 * b * p.y := by
  constructor <;> simp [evalAt, conic, Axis.coordinate, MvPolynomial.pderiv_X] <;> ring

/-- The example with its Jacobian is a polynomial system. -/
lemma derivedQuadratics_eq :
    derivedQuadratics = polynomialEquations (conic 3 2 (-35)) (conic 4 (-3) (-24)) := by
  rw [derivedQuadratics, polynomialEquations, quadratic1_eq, quadratic2_eq]
  congr 1 <;> funext p
  · rw [(evalAt_pderiv_conic _ _ _ p).1]
    norm_num
  · rw [(evalAt_pderiv_conic _ _ _ p).2]
    norm_num
  · rw [(evalAt_pderiv_conic _ _ _ p).1]
    norm_num
  · rw [(evalAt_pderiv_conic _ _ _ p).2]
    norm_num

/-- With estimated derivatives, the quadratics are solved by the same points as with their derivatives, and
the difference of `x³y` exceeds the derivative by `h²y`. -/
theorem quadratics_exact :
    (0 : ℚ) < 1 / 1000 ∧ (∀ axis, (conic 3 2 (-35)).degreeOf axis ≤ 2) ∧
      (∀ axis, (conic 4 (-3) (-24)).degreeOf axis ≤ 2) ∧
      (∀ start k, (Equations.ofObjectives (1 / 1000) quadratic1 quadratic2).trajectory start k =
        (derivedQuadratics : Equations ℚ Unit).trajectory start k) ∧
      centralDifference .x (1 / 1000) (fun q : Vec2 ℚ => q.y * q.x ^ 3) ⟨2, 5⟩ =
        60 + (1 / 1000) ^ 2 * 5 := by
  have hstep : (0 : ℚ) < 1 / 1000 := by norm_num
  have hF := degreeOf_conic_le 3 2 (-35)
  have hG := degreeOf_conic_le 4 (-3) (-24)
  obtain ⟨hcubic, hquadratic⟩ := centralDifference_exact hstep
  refine ⟨hstep, hF, hG, fun start k => ?_, ?_⟩
  · rw [quadratic1_eq, quadratic2_eq, derivedQuadratics_eq]
    exact (hquadratic _ _ hF hG).2 start k
  · have hx := hcubic .x (fun c => C c * X ^ 3) (fun c => natDegree_C_mul_X_pow_le c 3) ⟨2, 5⟩
    simp only [Axis.coordinate, Axis.otherCoordinate, eval_mul, eval_C, eval_pow, eval_X,
      derivative_C_mul_X_pow, coeff_C_mul_X_pow, if_true] at hx
    rw [hx]
    norm_num

end Showcase

end PlanarNewton
