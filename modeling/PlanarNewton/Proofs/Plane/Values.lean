import PlanarNewton.Equations
import PlanarNewton.Proofs.Binary64.Bounds
import PlanarNewton.Proofs.Random.Uniform

/-!
# The Newton step on values

Vectors, matrices and their linear algebra are written over any scalar, and values are one. Taking the
values of all entries commutes with every operation of a Newton step (`Evaluation.map_step`): where the
quotients are formed, the determinant is not zero (`det_ne_zero`), so no quotient depends on the sign of
a zero.
-/

namespace PlanarNewton
open Binary64

namespace Binary64.Value

/-- Values can be calculated with like doubles, only that zero has no sign. -/
noncomputable instance : Scalar Value where
  add := Value.add
  sub x y := x.add y.neg
  mul := Value.mul
  div := Value.div
  neg := Value.neg
  two := value 2.0
  epsilon := value epsilon
  abs := Value.abs
  larger := Value.larger
  le := Value.le
  isFinite := Value.isFinite

end Binary64.Value

namespace Binary64

/-- The larger of two doubles is one of them. -/
lemma larger_eq_or (x y : Float) : larger x y = x ∨ larger x y = y := by
  unfold larger
  split
  · exact .inr rfl
  · split
    · exact .inl rfl
    · split
      · exact .inr rfl
      · exact .inl rfl

/-- The value of the gap above one. -/
lemma value_epsilon : value epsilon = .finite (2 ^ (-52 : ℤ)) := by
  have h : value epsilon = .finite ((2 ^ 52 : ℕ) * 2 ^ (-104 : ℤ)) := rfl
  rw [h]
  norm_num

end Binary64

variable {α β : Type}

/-- The vector of the images of the coordinates. -/
def Vec2.map (f : α → β) (v : Vec2 α) : Vec2 β :=
  ⟨f v.x, f v.y⟩

/-- The matrix of the images of the entries. -/
def Mat2.map (f : α → β) (m : Mat2 α) : Mat2 β :=
  ⟨f m.a, f m.b, f m.c, f m.d⟩

/-- The evaluation of the images of all its numbers. -/
def Evaluation.map (f : α → β) (e : Evaluation α) : Evaluation β :=
  ⟨e.objective.map f, e.jacobian.map f⟩

/-- A vector is finite if its values are. -/
lemma Vec2.isFinite_map (v : Vec2 Float) : (v.map value).isFinite = v.isFinite := by
  rw [Vec2.isFinite, Vec2.isFinite]
  exact congrArg₂ _ (isFinite_eq v.x).symm (isFinite_eq v.y).symm

/-- The values of the opposite vector are the opposite ones. -/
lemma Vec2.map_neg (v : Vec2 Float) : (-v).map value = -v.map value := by
  show Vec2.mk (value (-v.x)) (value (-v.y)) = _
  rw [value_neg, value_neg]
  rfl

namespace Mat2

variable (m : Mat2 Float)

/-- A matrix is finite if its values are. -/
lemma isFinite_map : (m.map value).isFinite = m.isFinite := by
  simp only [Mat2.isFinite, map]
  exact congrArg₂ _ (congrArg₂ _ (congrArg₂ _ (isFinite_eq m.a).symm (isFinite_eq m.b).symm)
    (isFinite_eq m.c).symm) (isFinite_eq m.d).symm

/-- The determinant of the values is the value of the determinant. -/
lemma det_map : (m.map value).det = value m.det := by
  rw [det, det, value_sub, value_mul, value_mul]
  rfl

/-- The size of the products is found from their values. -/
lemma scale_map : Value.larger (Value.abs (.mul (value m.a) (value m.d)))
    (Value.abs (.mul (value m.b) (value m.c))) = value (larger (m.a * m.d).abs (m.b * m.c).abs) := by
  rw [value_larger, value_abs, value_abs, value_mul, value_mul]

/-- Whether a matrix counts as singular is found from its values. -/
lemma isSingular_map : (m.map value).isSingular = m.isSingular := by
  show (!(m.map value).det.isFinite || Value.le (m.map value).det.abs
      (Value.mul (value epsilon) (Value.larger _ _))) = (!m.det.isFinite || decide
        (m.det.abs ≤ epsilon * larger (m.a * m.d).abs (m.b * m.c).abs))
  rw [det_map, ← isFinite_eq, ← value_abs]
  congr 1
  rw [Bool.eq_iff_iff, decide_eq_true_iff, le_iff, value_mul, ← scale_map]
  rfl

/-- A matrix that is not singular has a determinant other than zero. -/
lemma det_ne_zero (h : m.isSingular = false) : value m.det ≠ .finite 0 := by
  intro h0
  have hdet := h0
  rw [det, value_sub] at hdet
  obtain ⟨p, q, hp, hq, -⟩ := exists_finite_of_add hdet
  -- Both products are finite, so the bound for the determinant is, or overflows upwards.
  obtain ⟨t, ht, ht0⟩ :
      ∃ t, value (larger (m.a * m.d).abs (m.b * m.c).abs) = .finite t ∧ 0 ≤ t := by
    obtain hl | hl := larger_eq_or (m.a * m.d).abs (m.b * m.c).abs
    · exact ⟨|p|, by rw [hl, value_abs, hp]; rfl, abs_nonneg p⟩
    · exact ⟨|q|, by rw [hl, value_abs, ← Value.abs_neg, hq]; rfl, abs_nonneg q⟩
  have hle : m.det.abs ≤ epsilon * larger (m.a * m.d).abs (m.b * m.c).abs := by
    rw [le_iff, value_abs, h0, value_mul, value_epsilon, ht]
    show (Value.finite |0|).le (Value.round (2 ^ (-52 : ℤ) * t)) = true
    rw [abs_zero]
    exact Value.le_round representable_zero abs_zero_lt_limit (mul_nonneg (by positivity) ht0)
  have hs : m.isSingular = true := Bool.or_eq_true_iff.mpr (.inr (decide_eq_true hle))
  rw [h] at hs
  cases hs

/-- Where the determinant is not zero, Cramer's rule on values gives the values. -/
lemma cramer_map (r : Vec2 Float) (h : value m.det ≠ .finite 0) :
    (m.map value).cramer (r.map value) = (m.cramer r).map value := by
  show Vec2.mk (Value.div _ (m.map value).det) (Value.div _ (m.map value).det) =
    Vec2.mk (value (_ / m.det)) (value (_ / m.det))
  rw [det_map, value_div h, value_div h, value_sub, value_sub, value_mul, value_mul, value_mul,
    value_mul]
  rfl

/-- A linear system is solved in values as in doubles. -/
lemma solve_map (r : Vec2 Float) :
    (m.map value).solve (r.map value) = (m.solve r).map (Vec2.map value) := by
  rw [solve, solve, isFinite_map, isSingular_map]
  split
  · rfl
  · rename_i h
    rw [Bool.or_eq_true, not_or, Bool.not_eq_true, Bool.not_eq_true] at h
    simp only [m.cramer_map r (m.det_ne_zero h.2), Vec2.isFinite_map]
    split <;> rfl

end Mat2

/-- The Newton step on values gives the values of the step. -/
theorem Evaluation.map_step (e : Evaluation Float) :
    (e.map value).step = e.step.map (Vec2.map value) := by
  rw [Evaluation.step, Evaluation.step, ← Mat2.solve_map, Vec2.map_neg]
  rfl

end PlanarNewton
