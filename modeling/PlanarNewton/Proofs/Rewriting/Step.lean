import PlanarNewton.Proofs.Binary64.Hypotenuse
import PlanarNewton.Proofs.Solver.Simulation

/-!
# Rewriting two equations

The two equations of a system may be exchanged, and each may be negated, with the rows of the Jacobian
alongside. On values the determinant and both numerators of Cramer's rule then change their sign
together, and nothing else of a Newton step changes (`Rewriting.step_evaluation`). On doubles the step is
the same up to the sign of a zero (`Rewriting.Rewrites.alike`).
-/

namespace PlanarNewton
open Binary64

/-- A way to write the same two equations. -/
inductive Rewriting where
  | exchange
  | negateFirst
  | negateSecond
deriving DecidableEq, Repr

namespace Rewriting

variable {α : Type} [Neg α]

/-- The two sides of the rewritten equations. -/
def vector : Rewriting → Vec2 α → Vec2 α
  | exchange, v => ⟨v.y, v.x⟩
  | negateFirst, v => ⟨-v.x, v.y⟩
  | negateSecond, v => ⟨v.x, -v.y⟩

/-- The Jacobian of the rewritten equations. -/
def matrix : Rewriting → Mat2 α → Mat2 α
  | exchange, m => ⟨m.c, m.d, m.a, m.b⟩
  | negateFirst, m => ⟨-m.a, -m.b, m.c, m.d⟩
  | negateSecond, m => ⟨m.a, m.b, -m.c, -m.d⟩

/-- The evaluation of the rewritten equations. -/
def evaluation (r : Rewriting) (e : Evaluation α) : Evaluation α :=
  ⟨r.vector e.objective, r.matrix e.jacobian⟩

section Values

variable (r : Rewriting) (m : Mat2 Value) (v : Vec2 Value)

/-- The determinant changes its sign. -/
lemma det_matrix : (r.matrix m).det = m.det.neg := by
  cases r with
  | exchange =>
    show (m.c.mul m.b).add (m.d.mul m.a).neg = ((m.a.mul m.d).add (m.b.mul m.c).neg).neg
    rw [Value.neg_add, Value.neg_neg, Value.add_comm, m.c.mul_comm, m.d.mul_comm]
  | negateFirst =>
    show (m.a.neg.mul m.d).add (m.b.neg.mul m.c).neg = ((m.a.mul m.d).add (m.b.mul m.c).neg).neg
    rw [Value.neg_add, Value.neg_mul, Value.neg_mul]
  | negateSecond =>
    show (m.a.mul m.d.neg).add (m.b.mul m.c.neg).neg = ((m.a.mul m.d).add (m.b.mul m.c).neg).neg
    rw [Value.neg_add, Value.mul_neg, Value.mul_neg]

/-- A rewritten vector is finite if the vector is. -/
lemma isFinite_vector : (r.vector v).isFinite = v.isFinite := by
  cases r with
  | exchange => exact Bool.and_comm _ _
  | negateFirst => exact congrArg (· && _) (Value.isFinite_neg v.x)
  | negateSecond => exact congrArg (_ && ·) (Value.isFinite_neg v.y)

/-- A rewritten matrix is finite if the matrix is. -/
lemma isFinite_matrix : (r.matrix m).isFinite = m.isFinite := by
  cases r with
  | exchange =>
    show (m.c.isFinite && m.d.isFinite && m.a.isFinite && m.b.isFinite) =
      (m.a.isFinite && m.b.isFinite && m.c.isFinite && m.d.isFinite)
    rw [Bool.and_assoc, Bool.and_comm, Bool.and_assoc, ← Bool.and_assoc m.a.isFinite,
      ← Bool.and_assoc]
  | negateFirst =>
    show (m.a.neg.isFinite && m.b.neg.isFinite && m.c.isFinite && m.d.isFinite) = _
    rw [Value.isFinite_neg, Value.isFinite_neg]
    rfl
  | negateSecond =>
    show (m.a.isFinite && m.b.isFinite && m.c.neg.isFinite && m.d.neg.isFinite) = _
    rw [Value.isFinite_neg, Value.isFinite_neg]
    rfl

/-- The size of the products does not change when rows are exchanged or negated. -/
lemma scale_matrix : Value.larger ((r.matrix m).a.mul (r.matrix m).d).abs
    ((r.matrix m).b.mul (r.matrix m).c).abs =
      Value.larger (m.a.mul m.d).abs (m.b.mul m.c).abs := by
  cases r with
  | exchange =>
    show Value.larger (m.c.mul m.b).abs (m.d.mul m.a).abs = _
    rw [Value.larger_comm, m.c.mul_comm, m.d.mul_comm]
  | negateFirst =>
    show Value.larger (m.a.neg.mul m.d).abs (m.b.neg.mul m.c).abs = _
    rw [Value.neg_mul, Value.neg_mul, Value.abs_neg, Value.abs_neg]
  | negateSecond =>
    show Value.larger (m.a.mul m.d.neg).abs (m.b.mul m.c.neg).abs = _
    rw [Value.mul_neg, Value.mul_neg, Value.abs_neg, Value.abs_neg]

/-- A rewritten matrix counts as singular if the matrix does. -/
lemma isSingular_matrix : (r.matrix m).isSingular = m.isSingular := by
  show (!(r.matrix m).det.isFinite || Value.le (r.matrix m).det.abs
    (Value.mul (value epsilon) (Value.larger _ _))) = _
  rw [det_matrix, Value.isFinite_neg, Value.abs_neg]
  exact congrArg (fun t => _ || Value.le _ (Value.mul _ t)) (scale_matrix r m)

/-- Two opposite values have the quotient of the values. -/
lemma neg_div_neg (x y : Value) : x.neg.div y.neg = x.div y := by
  rw [Value.neg_div, Value.div_neg, Value.neg_neg]

/-- The numerators change their signs, as the determinant does. -/
lemma cramer_matrix : (r.matrix m).cramer (r.vector v) = m.cramer v := by
  -- It is enough that both numerators are negated.
  have h {x y x' y' : Value} (hx : x' = x.neg) (hy : y' = y.neg) :
      Vec2.mk (x'.div (r.matrix m).det) (y'.div (r.matrix m).det) =
        ⟨x.div m.det, y.div m.det⟩ := by
    rw [det_matrix, hx, hy, neg_div_neg, neg_div_neg]
  cases r with
  | exchange =>
    apply h
    · show (v.y.mul m.b).add (m.d.mul v.x).neg = ((v.x.mul m.d).add (m.b.mul v.y).neg).neg
      rw [Value.neg_add, Value.neg_neg, Value.add_comm, v.y.mul_comm, m.d.mul_comm]
    · show (m.c.mul v.x).add (v.y.mul m.a).neg = ((m.a.mul v.y).add (v.x.mul m.c).neg).neg
      rw [Value.neg_add, Value.neg_neg, Value.add_comm, v.y.mul_comm, m.c.mul_comm]
  | negateFirst =>
    apply h
    · show (v.x.neg.mul m.d).add (m.b.neg.mul v.y).neg =
        ((v.x.mul m.d).add (m.b.mul v.y).neg).neg
      rw [Value.neg_add, Value.neg_mul, Value.neg_mul]
    · show (m.a.neg.mul v.y).add (v.x.neg.mul m.c).neg =
        ((m.a.mul v.y).add (v.x.mul m.c).neg).neg
      rw [Value.neg_add, Value.neg_mul, Value.neg_mul]
  | negateSecond =>
    apply h
    · show (v.x.mul m.d.neg).add (m.b.mul v.y.neg).neg =
        ((v.x.mul m.d).add (m.b.mul v.y).neg).neg
      rw [Value.neg_add, Value.mul_neg, Value.mul_neg]
    · show (m.a.mul v.y.neg).add (v.x.mul m.c.neg).neg =
        ((m.a.mul v.y).add (v.x.mul m.c).neg).neg
      rw [Value.neg_add, Value.mul_neg, Value.mul_neg]

/-- The solution of a linear system is that of the rewritten one. -/
lemma solve_matrix : (r.matrix m).solve (r.vector v) = m.solve v := by
  rw [Mat2.solve, Mat2.solve, isFinite_matrix, isSingular_matrix, cramer_matrix]

/-- The opposite vector is rewritten to the opposite. -/
lemma vector_neg : r.vector (-v) = -r.vector v := by
  cases r <;> rfl

/-- The Newton step on values is the same for the rewritten equations. -/
theorem step_evaluation (e : Evaluation Value) : (r.evaluation e).step = e.step := by
  show (r.matrix e.jacobian).solve (-r.vector e.objective) = e.jacobian.solve (-e.objective)
  rw [← vector_neg, solve_matrix]

end Values

/-- The second evaluation is that of the rewritten equations, but for signs of zeros in its Jacobian. -/
structure Rewrites (r : Rewriting) (e e' : Evaluation Float) : Prop where
  objective : e'.objective = r.vector e.objective
  jacobian : e'.jacobian.map value = r.matrix (e.jacobian.map value)

variable (r : Rewriting)

/-- Rewriting a vector commutes with taking values. -/
lemma vector_map (v : Vec2 Float) : (r.vector v).map value = r.vector (v.map value) := by
  cases r with
  | exchange => rfl
  | negateFirst => exact congrArg (Vec2.mk · _) (value_neg v.x)
  | negateSecond => exact congrArg (Vec2.mk _) (value_neg v.y)

/-- Rewriting a matrix commutes with taking values. -/
lemma matrix_map (m : Mat2 Float) : (r.matrix m).map value = r.matrix (m.map value) := by
  cases r with
  | exchange => rfl
  | negateFirst => exact congrArg₂ (Mat2.mk · · _ _) (value_neg m.a) (value_neg m.b)
  | negateSecond => exact congrArg₂ (Mat2.mk _ _) (value_neg m.c) (value_neg m.d)

/-- The rewritten evaluation is a rewriting of the evaluation. -/
lemma rewrites_evaluation (e : Evaluation Float) : r.Rewrites e (r.evaluation e) :=
  ⟨rfl, r.matrix_map e.jacobian⟩

end Rewriting

/-- A rewritten vector has the same length. -/
lemma Rewriting.norm_vector (r : Rewriting) (v : Vec2 Float) : (r.vector v).norm = v.norm := by
  cases r with
  | exchange => exact hypotenuse_comm v.y v.x
  | negateFirst => exact hypotenuse_neg_left v.x v.y
  | negateSecond => exact hypotenuse_neg_right v.x v.y

/-- An attempt treats the rewritten equations alike. -/
theorem Rewriting.Rewrites.alike {r : Rewriting} {e e' : Evaluation Float} (h : r.Rewrites e e') :
    e.Alike e' := by
  have hm : e'.map value = r.evaluation (e.map value) := by
    show Evaluation.mk (e'.objective.map value) (e'.jacobian.map value) = _
    rw [h.jacobian, h.objective, r.vector_map]
    rfl
  constructor
  · rw [h.objective, ← Vec2.isFinite_map, r.vector_map, r.isFinite_vector, Vec2.isFinite_map]
  · rw [h.objective, r.norm_vector]
  · rw [← Evaluation.map_step, ← Evaluation.map_step, hm, r.step_evaluation]

end PlanarNewton
