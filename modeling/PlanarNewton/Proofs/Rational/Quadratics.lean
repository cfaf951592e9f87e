import PlanarNewton.Showcase
import PlanarNewton.Proofs.Rational.Trajectory

/-!
# The quadratics in exact arithmetic

The two quadratics are independent combinations of `x² - 9` and `y² - 4`. So a Newton step goes in each
coordinate by Heron's rule for a square root (`Showcase.stepFrom_derivedQuadratics`), which keeps the sign,
leads above the root, and divides the error of the square by more than four. From the first step on, both
errors are positive parts of the residual, which therefore falls until it is zero
(`Showcase.trajectory_derivedQuadratics`).
-/

namespace PlanarNewton

/-- Heron's rule for the square root of `a`: the mean of `x` and `a / x`. -/
def heron (a x : ℚ) : ℚ :=
  (x ^ 2 + a) / (2 * x)

section

variable {a c x : ℚ}

/-- The new error is the square of the old one, divided by `4x²`. -/
lemma heron_sq_sub (hx : x ≠ 0) : heron a x ^ 2 - a = (x ^ 2 - a) ^ 2 / (4 * x ^ 2) := by
  unfold heron
  field_simp
  ring

/-- Heron's step, cleared of its denominator. -/
lemma mul_heron (hx : x ≠ 0) : x * heron a x = (x ^ 2 + a) / 2 := by
  unfold heron
  field_simp

/-- Heron's step keeps the sign. -/
lemma sign_heron (ha : 0 ≤ a) (hx : x ≠ 0) : SignType.sign (heron a x) = SignType.sign x := by
  have hpos : 0 < x * heron a x := by
    rw [mul_heron hx]
    positivity
  obtain ⟨hx, hh⟩ | ⟨hx, hh⟩ := mul_pos_iff.mp hpos
  · rw [sign_pos hx, sign_pos hh]
  · rw [sign_neg hx, sign_neg hh]

/-- After a step, the root is not above. -/
lemma le_abs_heron (hx : x ≠ 0) : c ≤ |heron (c ^ 2) x| := by
  have h : 0 ≤ heron (c ^ 2) x ^ 2 - c ^ 2 := by
    rw [heron_sq_sub hx]
    positivity
  exact (le_abs_self c).trans (sq_le_sq.mp (sub_nonneg.mp h))

/-- Above the root, a step leads down. -/
lemma abs_heron_le (hx : x ≠ 0) (h : a ≤ x ^ 2) (ha : 0 ≤ a) : |heron a x| ≤ |x| := by
  have hpos : 0 < |x| := abs_pos.mpr hx
  unfold heron
  rw [abs_div, abs_mul, abs_two, abs_of_nonneg (by positivity : 0 ≤ x ^ 2 + a),
    div_le_iff₀ (by positivity)]
  calc x ^ 2 + a ≤ x ^ 2 + x ^ 2 := by gcongr
    _ = |x| * (2 * |x|) := by rw [← sq_abs x]; ring

/-- Above the root, the error is divided by four at least. -/
lemma heron_sq_sub_le (hx : x ≠ 0) (h : a ≤ x ^ 2) (ha : 0 ≤ a) :
    heron a x ^ 2 - a ≤ (x ^ 2 - a) / 4 := by
  have hpos : 0 < x ^ 2 := by positivity
  rw [heron_sq_sub hx, div_le_iff₀ (by positivity)]
  calc (x ^ 2 - a) ^ 2 = (x ^ 2 - a) * (x ^ 2 - a) := sq _
    _ ≤ (x ^ 2 - a) * x ^ 2 := mul_le_mul_of_nonneg_left (sub_le_self _ ha) (sub_nonneg.mpr h)
    _ = (x ^ 2 - a) / 4 * (4 * x ^ 2) := by ring

/-- A square root is a fixed point of Heron's step. -/
lemma heron_eq_self (hx : x ≠ 0) (h : x ^ 2 = a) : heron a x = x := by
  unfold heron
  rw [← h]
  field_simp
  norm_num

end

namespace Showcase

variable {p : Vec2 ℚ}

/-- The first polynomial in the squares of the coordinates, over the rationals. -/
lemma quadratic1_rat (p : Vec2 ℚ) : quadratic1 p = 3 * (p.x ^ 2 - 9) + 2 * (p.y ^ 2 - 4) := by
  unfold quadratic1
  norm_num
  ring

/-- The second polynomial in the squares of the coordinates, over the rationals. -/
lemma quadratic2_rat (p : Vec2 ℚ) : quadratic2 p = 4 * (p.x ^ 2 - 9) - 3 * (p.y ^ 2 - 4) := by
  unfold quadratic2
  norm_num
  ring

/-- The Jacobian of the quadratics at a point. -/
lemma jacobian_derivedQuadratics (p : Vec2 ℚ) :
    (derivedQuadratics.evaluate p ()).1.jacobian = ⟨6 * p.x, 4 * p.y, 8 * p.x, -6 * p.y⟩ := by
  show Mat2.mk _ _ _ _ = _
  norm_num

/-- The determinant of the Jacobian vanishes on the axes only. -/
lemma det_jacobian (x y : ℚ) : (⟨6 * x, 4 * y, 8 * x, -6 * y⟩ : Mat2 ℚ).det = -68 * (x * y) := by
  show 6 * x * (-6 * y) - 4 * y * (8 * x) = _
  ring

/-- Off the axes, the determinant is larger than both of its products. -/
lemma isSingular_jacobian (hx : p.x ≠ 0) (hy : p.y ≠ 0) :
    (derivedQuadratics.evaluate p ()).1.jacobian.isSingular = false := by
  rw [jacobian_derivedQuadratics, ← Bool.not_eq_true, Mat2.isSingular_iff_le, det_jacobian, not_le]
  have hpos : 0 < |p.x * p.y| := abs_pos.mpr (mul_ne_zero hx hy)
  have habs (k : ℚ) : |k * (p.x * p.y)| = |k| * |p.x * p.y| := abs_mul _ _
  have h1 : 6 * p.x * (-6 * p.y) = -36 * (p.x * p.y) := by ring
  have h2 : 4 * p.y * (8 * p.x) = 32 * (p.x * p.y) := by ring
  rw [h1, h2, habs, habs, habs, ← max_mul_of_nonneg _ _ hpos.le, ← mul_assoc]
  gcongr
  norm_num

/-- A Newton step of the quadratics: Heron's rule in each coordinate. -/
def quadraticStep (p : Vec2 ℚ) : Vec2 ℚ :=
  ⟨heron (3 ^ 2) p.x, heron (2 ^ 2) p.y⟩

/-- Off the axes, Newton's step of the example is Heron's step in both coordinates. -/
theorem stepFrom_derivedQuadratics (hx : p.x ≠ 0) (hy : p.y ≠ 0) :
    derivedQuadratics.stepFrom p = some (quadraticStep p) := by
  have hdet : -68 * (p.x * p.y) ≠ 0 := by positivity
  rw [Equations.stepFrom, Evaluation.step, Mat2.solve_rat (isSingular_jacobian hx hy),
    jacobian_derivedQuadratics, Option.map_some, Option.some.injEq]
  show Vec2.mk (p.x + (-quadratic1 p * (-6 * p.y) - 4 * p.y * -quadratic2 p) / Mat2.det _)
    (p.y + (6 * p.x * -quadratic2 p - -quadratic1 p * (8 * p.x)) / Mat2.det _) = Vec2.mk _ _
  rw [det_jacobian, quadratic1_rat, quadratic2_rat]
  unfold heron
  congr 1
  · field_simp
    ring
  · field_simp
    ring

/-- The square of the length of the objective, `F² + G²`. -/
def squareResidual (p : Vec2 ℚ) : ℚ :=
  (derivedQuadratics.evaluate p ()).1.objective.x ^ 2 +
    (derivedQuadratics.evaluate p ()).1.objective.y ^ 2

/-- The quadratic form of the residual in the errors of the two squares. -/
def residualForm (u w : ℚ) : ℚ :=
  25 * u ^ 2 - 12 * u * w + 13 * w ^ 2

/-- The squared residual is a quadratic form of the distances in the squares. -/
lemma squareResidual_eq (p : Vec2 ℚ) :
    squareResidual p = residualForm (p.x ^ 2 - 3 ^ 2) (p.y ^ 2 - 2 ^ 2) := by
  show quadratic1 p ^ 2 + quadratic2 p ^ 2 = _
  rw [quadratic1_rat, quadratic2_rat, residualForm]
  ring

/-- The form is positive definite. -/
lemma le_residualForm (u w : ℚ) : 7 * (u ^ 2 + w ^ 2) ≤ residualForm u w := by
  unfold residualForm
  linarith [sq_nonneg (u - w), sq_nonneg u]

/-- The form is definite. -/
lemma eq_zero_of_residualForm {u w : ℚ} (h : residualForm u w = 0) : u = 0 ∧ w = 0 := by
  have hle := le_residualForm u w
  rw [h] at hle
  constructor
  · exact pow_eq_zero_iff two_ne_zero |>.mp (by linarith [sq_nonneg u, sq_nonneg w])
  · exact pow_eq_zero_iff two_ne_zero |>.mp (by linarith [sq_nonneg u, sq_nonneg w])

/-- It falls if both errors, which are not negative, are divided by four. -/
lemma residualForm_lt {u w u' w' : ℚ} (hu : 0 ≤ u') (hu' : u' ≤ u / 4) (hw : 0 ≤ w')
    (hw' : w' ≤ w / 4) (h : residualForm u w ≠ 0) : residualForm u' w' < residualForm u w := by
  have hsq : u' ^ 2 ≤ u ^ 2 / 16 := by
    calc u' ^ 2 ≤ (u / 4) ^ 2 := by gcongr
      _ = u ^ 2 / 16 := by ring
  have hsq' : w' ^ 2 ≤ w ^ 2 / 16 := by
    calc w' ^ 2 ≤ (w / 4) ^ 2 := by gcongr
      _ = w ^ 2 / 16 := by ring
  have hmix : 0 ≤ 12 * u' * w' := by positivity
  have hle : residualForm u' w' ≤ 25 / 16 * (u ^ 2 + w ^ 2) := by
    unfold residualForm
    linarith [sq_nonneg w]
  have hpos : 0 < u ^ 2 + w ^ 2 := by
    refine lt_of_le_of_ne (by positivity) fun h0 => h ?_
    rw [eq_comm, add_eq_zero_iff_of_nonneg (sq_nonneg u) (sq_nonneg w),
      pow_eq_zero_iff two_ne_zero, pow_eq_zero_iff two_ne_zero] at h0
    rw [h0.1, h0.2, residualForm]
    norm_num
  calc residualForm u' w' ≤ 25 / 16 * (u ^ 2 + w ^ 2) := hle
    _ < 7 * (u ^ 2 + w ^ 2) := by gcongr; norm_num
    _ ≤ residualForm u w := le_residualForm u w

/-- The point lies in the same quadrant as the start. -/
structure IsBeside (start p : Vec2 ℚ) : Prop where
  sign_x : SignType.sign p.x = SignType.sign start.x
  sign_y : SignType.sign p.y = SignType.sign start.y

/-- What lies beside a start off the axes is off the axes. -/
lemma IsBeside.ne_zero {start : Vec2 ℚ} (h : IsBeside start p) (hx : start.x ≠ 0)
    (hy : start.y ≠ 0) : p.x ≠ 0 ∧ p.y ≠ 0 := by
  rw [← sign_ne_zero, h.sign_x, sign_ne_zero, ← sign_ne_zero (a := p.y), h.sign_y, sign_ne_zero]
  exact ⟨hx, hy⟩

/-- A step stays in its quadrant. -/
lemma isBeside_quadraticStep (hx : p.x ≠ 0) (hy : p.y ≠ 0) : IsBeside p (quadraticStep p) :=
  ⟨sign_heron (by norm_num) hx, sign_heron (by norm_num) hy⟩

/-- The coordinates of the point are at least those of the root in size. -/
structure IsOutside (p : Vec2 ℚ) : Prop where
  three_le : 3 ≤ |p.x|
  two_le : 2 ≤ |p.y|

/-- After a step, both coordinates are at least as large as those of the solution. -/
lemma isOutside_quadraticStep (hx : p.x ≠ 0) (hy : p.y ≠ 0) : IsOutside (quadraticStep p) :=
  ⟨le_abs_heron hx, le_abs_heron hy⟩

namespace IsOutside

/-- Outside, the first coordinate is not zero. -/
lemma x_ne_zero (h : IsOutside p) : p.x ≠ 0 :=
  abs_pos.mp (lt_of_lt_of_le (by norm_num) h.three_le)

/-- Outside, the second coordinate is not zero. -/
lemma y_ne_zero (h : IsOutside p) : p.y ≠ 0 :=
  abs_pos.mp (lt_of_lt_of_le (by norm_num) h.two_le)

/-- Outside, the square of the first coordinate is at least that of the solution. -/
lemma sq_le_x (h : IsOutside p) : 3 ^ 2 ≤ p.x ^ 2 := by
  rw [← sq_abs p.x]
  exact pow_le_pow_left₀ (by norm_num) h.three_le 2

/-- Outside, the square of the second coordinate is at least that of the solution. -/
lemma sq_le_y (h : IsOutside p) : 2 ^ 2 ≤ p.y ^ 2 := by
  rw [← sq_abs p.y]
  exact pow_le_pow_left₀ (by norm_num) h.two_le 2

/-- From outside, neither coordinate grows. -/
lemma abs_le (h : IsOutside p) :
    |(quadraticStep p).x| ≤ |p.x| ∧ |(quadraticStep p).y| ≤ |p.y| :=
  ⟨abs_heron_le h.x_ne_zero h.sq_le_x (by norm_num), abs_heron_le h.y_ne_zero h.sq_le_y (by norm_num)⟩

/-- From outside, the residual falls, unless it is zero; then the step leads nowhere else. -/
lemma squareResidual_lt (h : IsOutside p) :
    squareResidual (quadraticStep p) < squareResidual p ∨
      squareResidual p = 0 ∧ quadraticStep p = p := by
  by_cases h0 : squareResidual p = 0
  · have hroot := h0
    rw [squareResidual_eq] at hroot
    obtain ⟨hx, hy⟩ := eq_zero_of_residualForm hroot
    exact .inr ⟨h0, congrArg₂ Vec2.mk (heron_eq_self h.x_ne_zero (sub_eq_zero.mp hx))
      (heron_eq_self h.y_ne_zero (sub_eq_zero.mp hy))⟩
  · left
    have hnext := isOutside_quadraticStep h.x_ne_zero h.y_ne_zero
    have hx := heron_sq_sub_le h.x_ne_zero h.sq_le_x (by norm_num)
    have hy := heron_sq_sub_le h.y_ne_zero h.sq_le_y (by norm_num)
    rw [squareResidual_eq] at h0 ⊢
    rw [squareResidual_eq]
    exact residualForm_lt (sub_nonneg.mpr hnext.sq_le_x) hx (sub_nonneg.mpr hnext.sq_le_y) hy h0

end IsOutside

/--
Newton's method on the quadratics, in exact arithmetic, from any start off the axes: there is a step from
every point, since the Jacobian is nowhere singular; no point leaves the quadrant of the start; from the
first step on, the coordinates are at least those of the root in size and do not grow, and the residual
falls with every step, until it is zero.
-/
theorem trajectory_derivedQuadratics {start : Vec2 ℚ} (hx : start.x ≠ 0) (hy : start.y ≠ 0) :
    ∃ p : ℕ → Vec2 ℚ, ∀ k,
      derivedQuadratics.trajectory start k = some (p k) ∧
      (derivedQuadratics.evaluate (p k) ()).1.jacobian.isSingular = false ∧
      SignType.sign (p k).x = SignType.sign start.x ∧
      SignType.sign (p k).y = SignType.sign start.y ∧
      (1 ≤ k →
        3 ≤ |(p k).x| ∧ 2 ≤ |(p k).y| ∧
        |(p (k + 1)).x| ≤ |(p k).x| ∧ |(p (k + 1)).y| ≤ |(p k).y| ∧
        (squareResidual (p (k + 1)) < squareResidual (p k) ∨
          squareResidual (p k) = 0 ∧ p (k + 1) = p k)) := by
  have hstep (p : Vec2 ℚ) (h : IsBeside start p) :
      derivedQuadratics.stepFrom p = some (quadraticStep p) := by
    obtain ⟨hpx, hpy⟩ := h.ne_zero hx hy
    exact stepFrom_derivedQuadratics hpx hpy
  have hnext (p : Vec2 ℚ) (h : IsBeside start p) : IsBeside start (quadraticStep p) := by
    obtain ⟨hpx, hpy⟩ := h.ne_zero hx hy
    have h' := isBeside_quadraticStep hpx hpy
    exact ⟨h'.sign_x.trans h.sign_x, h'.sign_y.trans h.sign_y⟩
  have htrajectory (k : ℕ) := Equations.trajectory_eq hstep hnext ⟨rfl, rfl⟩ k
  refine ⟨fun k => quadraticStep^[k] start, fun k => ?_⟩
  obtain ⟨heq, hbeside⟩ := htrajectory k
  obtain ⟨hkx, hky⟩ := hbeside.ne_zero hx hy
  refine ⟨heq, isSingular_jacobian hkx hky, hbeside.sign_x, hbeside.sign_y, fun h1 => ?_⟩
  -- The point is outside, since a step has led to it.
  obtain ⟨j, rfl⟩ := Nat.exists_eq_add_of_le' h1
  obtain ⟨hjx, hjy⟩ := (htrajectory j).2.ne_zero hx hy
  have hout : IsOutside (quadraticStep^[j + 1] start) := by
    rw [Function.iterate_succ_apply']
    exact isOutside_quadraticStep hjx hjy
  have hsucc : quadraticStep^[j + 1 + 1] start = quadraticStep (quadraticStep^[j + 1] start) :=
    Function.iterate_succ_apply' ..
  obtain ⟨hlex, hley⟩ := hout.abs_le
  dsimp only
  rw [hsucc]
  exact ⟨hout.three_le, hout.two_le, hlex, hley, hout.squareResidual_lt⟩

/-- Close to an axis, the first step leads far out, but not across. -/
theorem trajectory_near_axis :
    (1 / 1000 : ℚ) ≠ 0 ∧ (-7 : ℚ) ≠ 0 ∧ ∃ p : ℕ → Vec2 ℚ, ∀ k,
      derivedQuadratics.trajectory ⟨1 / 1000, -7⟩ k = some (p k) ∧
      SignType.sign (p k).x = 1 ∧ SignType.sign (p k).y = -1 ∧
      (1 ≤ k → |(p (k + 1)).x| ≤ |(p k).x|) := by
  have hx : (1 / 1000 : ℚ) ≠ 0 := by norm_num
  have hy : (-7 : ℚ) ≠ 0 := by norm_num
  obtain ⟨p, hp⟩ := @trajectory_derivedQuadratics ⟨1 / 1000, -7⟩ hx hy
  refine ⟨hx, hy, p, fun k => ?_⟩
  obtain ⟨htrajectory, -, hsx, hsy, hafter⟩ := hp k
  refine ⟨htrajectory, ?_, ?_, fun h => (hafter h).2.2.1⟩
  · rw [hsx, sign_pos (by norm_num)]
  · rw [hsy, sign_neg (by norm_num)]

end Showcase

end PlanarNewton
