import PlanarNewton.Proofs.Plane.Exact
import PlanarNewton.Proofs.Solver.Solve

/-!
# Affine systems

Newton's method solves an affine system `m * p + b = 0` in one step, as far as nothing is rounded on the
way (`Affine.IsExactFrom`): the step is the solution of `m * v = -(m * p + b)`, so that it leads to the
root (`Affine.IsExactFrom.isRoot_next`). There the objective is zero and below every accuracy, so that an
attempt needs one step at most (`Affine.IsExactFrom.converges`).
-/

namespace PlanarNewton
open Binary64

variable {μ : Type}

/-- The function `p ↦ m * p + b` of the plane, where the matrix consists of doubles. -/
structure Affine where
  matrix : Mat2 Float
  entries : Mat2 ℚ
  shift : Vec2 ℚ
  map_matrix : matrix.map value = entries.map .finite

namespace Affine

/-- The exact value of the function. -/
def eval (A : Affine) (q : Vec2 ℚ) : Vec2 ℚ :=
  A.entries.apply q + A.shift

/-- The function is exactly zero at the point. -/
def IsRoot (A : Affine) (p : Vec2 Float) : Prop :=
  ∃ q : Vec2 ℚ, p.map value = q.map .finite ∧ A.eval q = ⟨0, 0⟩

/-- At this point, the system has the matrix as its Jacobian and the function, not rounded, as its objective. -/
structure IsValueAt (A : Affine) (s : Equations Float μ) (p : Vec2 Float) : Prop where
  jacobian_eq (memory : μ) : (s.evaluate p memory).1.jacobian = A.matrix
  objective_eq (memory : μ) : ∃ q : Vec2 ℚ, p.map value = q.map .finite ∧
    (s.evaluate p memory).1.objective.map value = (A.eval q).map .finite

/-- The right-hand side for the first step from a point. -/
def residual (s : Equations Float μ) (start : Vec2 Float) (memory : μ) : Vec2 Float :=
  -(s.evaluate start memory).1.objective

/-- The point that the first step leads to. -/
def next (A : Affine) (s : Equations Float μ) (start : Vec2 Float) (memory : μ) : Vec2 Float :=
  start + A.matrix.cramer (residual s start memory)

/-- Nothing is rounded in the first step from this point, and in the evaluation after it. -/
structure IsExactFrom (A : Affine) (s : Equations Float μ) (start : Vec2 Float) (memory : μ) :
    Prop where
  before : A.IsValueAt s start
  solve : A.matrix.IsExactFor (residual s start memory)
  move_x : IsExact (· + ·) (· + ·) start.x (A.matrix.cramer (residual s start memory)).x
  move_y : IsExact (· + ·) (· + ·) start.y (A.matrix.cramer (residual s start memory)).y
  after : A.IsValueAt s (A.next s start memory)

variable {A : Affine} {s : Equations Float μ} {start : Vec2 Float} {memory : μ}

/-- An affine map adds the image of a difference under its linear part. -/
lemma eval_add (A : Affine) (q w : Vec2 ℚ) : A.eval (q + w) = A.eval q + A.entries.apply w := by
  show Vec2.mk _ _ = Vec2.mk _ _
  congr 1
  · show A.entries.a * (q.x + w.x) + A.entries.b * (q.y + w.y) + A.shift.x =
      A.entries.a * q.x + A.entries.b * q.y + A.shift.x + (A.entries.a * w.x + A.entries.b * w.y)
    ring
  · show A.entries.c * (q.x + w.x) + A.entries.d * (q.y + w.y) + A.shift.y =
      A.entries.c * q.x + A.entries.d * q.y + A.shift.y + (A.entries.c * w.x + A.entries.d * w.y)
    ring

/-- A step that solves for the negative value leads to a zero. -/
lemma eval_add_of_apply_eq {q w : Vec2 ℚ} (h : A.entries.apply w = -A.eval q) :
    A.eval (q + w) = ⟨0, 0⟩ := by
  rw [eval_add, h]
  exact congrArg₂ Vec2.mk (add_neg_cancel (A.eval q).x) (add_neg_cancel (A.eval q).y)

/-- There is one zero at most. -/
lemma eq_of_eval_eq_zero (h : A.entries.det ≠ 0) {q q' : Vec2 ℚ} (hq : A.eval q = ⟨0, 0⟩)
    (hq' : A.eval q' = ⟨0, 0⟩) : q' = q := by
  have happly {q : Vec2 ℚ} (hq : A.eval q = ⟨0, 0⟩) :
      A.entries.apply q = ⟨-A.shift.x, -A.shift.y⟩ := by
    have hx : (A.entries.apply q).x + A.shift.x = 0 := congrArg Vec2.x hq
    have hy : (A.entries.apply q).y + A.shift.y = 0 := congrArg Vec2.y hq
    exact congrArg₂ Vec2.mk (eq_neg_of_add_eq_zero_left hx) (eq_neg_of_add_eq_zero_left hy)
  rw [← Mat2.cramer_apply h q', happly hq', ← happly hq, Mat2.cramer_apply h]

/-- The length of a zero vector is below every accuracy. -/
lemma norm_eq_zero {v : Vec2 Float} (h : v.map value = (⟨0, 0⟩ : Vec2 ℚ).map .finite) :
    v.norm = 0.0 := by
  obtain ⟨hx, hy⟩ := Vec2.map_eq_finite.mp h
  obtain ⟨s, hs⟩ := exists_zero_of_value hx
  obtain ⟨t, ht⟩ := exists_zero_of_value hy
  rw [Vec2.norm, hypotenuse, hs, ht]

/-- A vector of rational values is finite. -/
lemma isFinite_of_map {v : Vec2 Float} {w : Vec2 ℚ} (h : v.map value = w.map .finite) :
    v.isFinite = true := by
  obtain ⟨hx, hy⟩ := Vec2.map_eq_finite.mp h
  exact Bool.and_eq_true_iff.mpr ⟨isFinite_of_value hx, isFinite_of_value hy⟩

namespace IsExactFrom

/-- The step and the point that it leads to, in exact numbers. -/
lemma exists_step (h : A.IsExactFrom s start memory) (hs : A.matrix.isSingular = false) :
    ∃ q w : Vec2 ℚ,
      (A.matrix.cramer (residual s start memory)).map value = w.map .finite ∧
      (A.next s start memory).map value = (q + w).map .finite ∧ A.eval (q + w) = ⟨0, 0⟩ := by
  obtain ⟨q, hq, hf⟩ := h.before.objective_eq memory
  have hr : (residual s start memory).map value = (-A.eval q).map .finite := by
    rw [residual, Vec2.map_neg, hf]
    rfl
  have hw := h.solve.map_cramer A.map_matrix hr
  obtain ⟨hx, hy⟩ := Vec2.map_eq_finite.mp hq
  obtain ⟨hwx, hwy⟩ := Vec2.map_eq_finite.mp hw
  refine ⟨q, _, hw, ?_, ?_⟩
  · exact Vec2.map_eq_finite.mpr ⟨h.move_x.value_eq hx hwx, h.move_y.value_eq hy hwy⟩
  · exact eval_add_of_apply_eq (Mat2.apply_cramer (h.solve.det_ne_zero A.map_matrix hs) _)

/-- The first step leads to the root. -/
theorem isRoot_next (h : A.IsExactFrom s start memory) (hs : A.matrix.isSingular = false) :
    A.IsRoot (A.next s start memory) := by
  obtain ⟨q, w, -, hn, h0⟩ := h.exists_step hs
  exact ⟨q + w, hn, h0⟩

/-- All roots are worth the same. -/
theorem root_unique (h : A.IsExactFrom s start memory) (hs : A.matrix.isSingular = false)
    {p p' : Vec2 Float} (hp : A.IsRoot p) (hp' : A.IsRoot p') : p'.map value = p.map value := by
  obtain ⟨q, hq, h0⟩ := hp
  obtain ⟨q', hq', h0'⟩ := hp'
  rw [hq, hq', eq_of_eval_eq_zero (h.solve.det_ne_zero A.map_matrix hs) h0 h0']

/-- The first step is made if the root is accepted. -/
lemma advance_eq (h : A.IsExactFrom s start memory) (hs : A.matrix.isSingular = false)
    (hc : s.accepts (A.next s start memory) = true) :
    s.advance ⟨start, (s.evaluate start memory).1⟩ = .ok (A.next s start memory) := by
  obtain ⟨q, w, hw, hn, -⟩ := h.exists_step hs
  have hfinite : A.matrix.isFinite = true := by
    rw [← Mat2.isFinite_map, A.map_matrix]
    rfl
  have hsolve : A.matrix.solve (residual s start memory) =
      some (A.matrix.cramer (residual s start memory)) := by
    rw [Mat2.solve, hfinite, hs]
    exact if_pos (isFinite_of_map hw)
  have hstep : (s.evaluate start memory).1.step =
      some (A.matrix.cramer (residual s start memory)) := by
    rw [Evaluation.step, h.before.jacobian_eq memory]
    exact hsolve
  have hnext : (start + A.matrix.cramer (residual s start memory)).isFinite = true :=
    isFinite_of_map hn
  have hc' : s.accepts (start + A.matrix.cramer (residual s start memory)) = true := hc
  simp only [Equations.advance, hstep, hnext, hc']
  rfl

/-- An attempt converges at its start, or after one step at the root. -/
theorem converges (h : A.IsExactFrom s start memory) (hs : A.matrix.isSingular = false)
    (hc : s.accepts (A.next s start memory) = true) {accuracy : Float} (ha : 0.0 < accuracy)
    {allowed : ℕ} (hl : 0 < allowed) :
    ∃ p r, (s.attempt accuracy allowed start memory).outcome = .converged p r ∧
      (s.attempt accuracy allowed start memory).steps ≤ 1 ∧
      ((s.attempt accuracy allowed start memory).steps = 1 → p = A.next s start memory) := by
  obtain ⟨left, rfl⟩ := Nat.exists_eq_succ_of_ne_zero hl.ne'
  obtain ⟨e, m', he⟩ : ∃ e m', s.evaluate start memory = (e, m') := ⟨_, _, rfl⟩
  obtain ⟨_, -, hf⟩ := h.before.objective_eq memory
  rw [he] at hf
  by_cases hr : e.objective.norm < accuracy
  · have hattempt : s.IsAttempt accuracy (left + 1) start memory _ :=
      .converged he (isFinite_of_map hf) hr
    rw [hattempt.eq]
    exact ⟨start, _, rfl, Nat.zero_le 1, nofun⟩
  · have hadvance := h.advance_eq hs hc
    rw [he] at hadvance
    -- At the root the objective is zero, whatever the memory.
    obtain ⟨e', m'', he'⟩ : ∃ e' m'', s.evaluate (A.next s start memory) m' = (e', m'') :=
      ⟨_, _, rfl⟩
    obtain ⟨q, hq, hf'⟩ := h.after.objective_eq m'
    obtain ⟨q', hq', h0⟩ := h.isRoot_next hs
    obtain rfl := Vec2.map_finite_inj.mp (hq.symm.trans hq')
    rw [he', h0] at hf'
    have hr' : e'.objective.norm < accuracy := by rwa [norm_eq_zero hf']
    have hattempt : s.IsAttempt accuracy (left + 1) start memory _ :=
      .step he ⟨isFinite_of_map hf, hr⟩ hadvance (.converged he' (isFinite_of_map hf') hr')
    rw [hattempt.eq]
    exact ⟨A.next s start memory, _, rfl, le_rfl, fun _ => rfl⟩

end IsExactFrom

/--
Where the operations of Cramer's rule and of the product do not round, an answer `v` to `m * v = r` solves
the equation exactly, and nothing else does. So where the operations of a first Newton step and of the
evaluation after it do not round, and no constraint refuses the root, an attempt to solve an affine system
converges, at its start or after one step; then the point it converges to is the root, and the only one.
-/
theorem exact_one_step :
    (∀ {m : Mat2 Float} {r v : Vec2 Float}, m.IsExactFor r → m.solve r = some v → m.IsExactAt v →
      (m.apply v).map value = r.map value ∧
      ∃ (n : Mat2 ℚ) (s w : Vec2 ℚ), m.map value = n.map .finite ∧ r.map value = s.map .finite ∧
        v.map value = w.map .finite ∧ n.apply w = s ∧ ∀ w', n.apply w' = s → w' = w) ∧
    ∀ {μ : Type} {A : Affine} {s : Equations Float μ} {start : Vec2 Float} {memory : μ}
      {accuracy : Float} {allowed : ℕ}, A.matrix.isSingular = false →
      A.IsExactFrom s start memory → (∀ p, A.IsRoot p → s.accepts p = true) →
      0.0 < accuracy → 0 < allowed →
      ∃ p r, (s.attempt accuracy allowed start memory).outcome = .converged p r ∧
        (s.attempt accuracy allowed start memory).steps ≤ 1 ∧
        ((s.attempt accuracy allowed start memory).steps = 1 →
          A.IsRoot p ∧ ∀ p', A.IsRoot p' → p'.map value = p.map value) := by
  constructor
  · intro m r v h hs hv
    obtain ⟨n, s, hm, hr⟩ := h.exists_values
    obtain ⟨w, hw, heq, hunique⟩ := h.solution hs hm hr
    refine ⟨?_, n, s, w, hm, hr, hw, heq, hunique⟩
    rw [hv.map_apply hm hw, heq, hr]
  · intro μ A s start memory accuracy allowed hs h hroot ha hl
    have hnext := h.isRoot_next hs
    obtain ⟨p, r, ho, hsteps, hp⟩ := h.converges hs (hroot _ hnext) ha hl
    refine ⟨p, r, ho, hsteps, fun h1 => ?_⟩
    obtain rfl := hp h1
    exact ⟨hnext, fun p' hp' => h.root_unique hs hnext hp'⟩

/-- The two lines of `Solver.crossing`. -/
def lines : Affine where
  matrix := ⟨1.0, 1.0, 1.0, -1.0⟩
  entries := ⟨1, 1, 1, -1⟩
  shift := ⟨-3, -1⟩
  map_matrix := Mat2.map_eq_finite.mpr (by decide +kernel)

/-- Where their values are computed exactly, they are what the system evaluates. -/
lemma isValueAt_lines {p : Vec2 Float} (q : Vec2 ℚ) (hp : p.map value = q.map .finite)
    (hf : ((Solver.crossing Solver.once).system.evaluate p ()).1.objective.map value =
      (lines.eval q).map .finite) : lines.IsValueAt (Solver.crossing Solver.once).system p :=
  ⟨fun _ => rfl, fun _ => ⟨q, hp, hf⟩⟩

/-- From `(1, 1)`, the crossing is solved without rounding. -/
lemma isExactFrom_lines :
    lines.IsExactFrom (Solver.crossing Solver.once).system ⟨1.0, 1.0⟩ () where
  before := isValueAt_lines ⟨1, 1⟩ (Vec2.map_eq_finite.mpr (by decide +kernel))
    (Vec2.map_eq_finite.mpr (by decide +kernel))
  solve := by constructor <;> decide +kernel
  move_x := by decide +kernel
  move_y := by decide +kernel
  after := isValueAt_lines ⟨2, 1⟩ (Vec2.map_eq_finite.mpr (by decide +kernel))
    (Vec2.map_eq_finite.mpr (by decide +kernel))

/-- Their crossing is in the half plane. -/
lemma accepts_of_isRoot_lines {p : Vec2 Float} (h : lines.IsRoot p) :
    (Solver.crossing Solver.once).system.accepts p = true := by
  obtain ⟨q, hp, hq⟩ := h
  have hcrossing : lines.eval ⟨2, 1⟩ = ⟨0, 0⟩ := by decide +kernel
  obtain rfl := eq_of_eval_eq_zero (by decide +kernel) hcrossing hq
  have hx : p.x > 0.0 := by
    rw [gt_iff_lt, lt_iff, (Vec2.map_eq_finite.mp hp).1]
    decide +kernel
  exact Bool.and_eq_true_iff.mpr ⟨decide_eq_true hx, rfl⟩

/-- An equation solved without roundings, and the crossing of the lines reached in one step. -/
theorem lines_exact_one_step :
    (⟨1.0, 2.0, 3.0, 4.0⟩ : Mat2 Float).IsExactFor ⟨5.0, 11.0⟩ ∧
    ((⟨1.0, 2.0, 3.0, 4.0⟩ : Mat2 Float).apply ⟨1.0, 2.0⟩).map value =
      (⟨5.0, 11.0⟩ : Vec2 Float).map value ∧
    lines.IsExactFrom (Solver.crossing Solver.once).system ⟨1.0, 1.0⟩ () ∧
    ∃ p r, ((Solver.crossing Solver.once).system.attempt 1e-6 1 ⟨1.0, 1.0⟩ ()).outcome =
      .converged p r ∧ lines.IsRoot p := by
  have hcramer : (⟨1.0, 2.0, 3.0, 4.0⟩ : Mat2 Float).IsExactFor ⟨5.0, 11.0⟩ := by
    constructor <;> decide +kernel
  have hproduct : (⟨1.0, 2.0, 3.0, 4.0⟩ : Mat2 Float).IsExactAt ⟨1.0, 2.0⟩ := by
    constructor <;> decide +kernel
  have hsolve : (⟨1.0, 2.0, 3.0, 4.0⟩ : Mat2 Float).solve ⟨5.0, 11.0⟩ = some ⟨1.0, 2.0⟩ := by
    decide +kernel
  have haccuracy : (0.0 : Float) < 1e-6 := by decide +kernel
  obtain ⟨hsolved, -⟩ := exact_one_step.1 hcramer hsolve hproduct
  obtain ⟨p, r, ho, -, hp⟩ := exact_one_step.2 (by decide +kernel) isExactFrom_lines
    (fun _ => accepts_of_isRoot_lines) haccuracy Nat.one_pos
  exact ⟨hcramer, hsolved, isExactFrom_lines, p, r, ho, (hp (by decide +kernel)).1⟩

end Affine

end PlanarNewton
