import PlanarNewton.Proofs.Plane.Determinant

/-!
# Exact operations

An operation on doubles is exact if it gives what it gives on rationals (`Binary64.IsExact`). Over the
rationals, Cramer's rule and the product of matrix and vector are inverse to each other
(`Mat2.apply_cramer`, `Mat2.cramer_apply`). So where no operation rounds, what Cramer's rule answers is the
solution, and the only one (`Mat2.IsExactFor.solution`).
-/

namespace PlanarNewton
open Binary64

namespace Binary64

/-- The doubles are finite, and the operation gives what it gives on rationals: it does not round. -/
def IsExact (op : Float → Float → Float) (op' : ℚ → ℚ → ℚ) (x y : Float) : Prop :=
  ∃ p q, value x = .finite p ∧ value y = .finite q ∧ value (op x y) = .finite (op' p q)

/-- Two products are exact, and so is the operation that joins them. -/
structure IsExactJoin (op : Float → Float → Float) (op' : ℚ → ℚ → ℚ) (a b c d : Float) : Prop where
  left : IsExact (· * ·) (· * ·) a b
  right : IsExact (· * ·) (· * ·) c d
  join : IsExact op op' (a * b) (c * d)

section

variable {op : Float → Float → Float} {op' : ℚ → ℚ → ℚ}

/-- The exact operation on two values gives the value of the result. -/
lemma IsExact.value_eq {x y : Float} {p q : ℚ} (h : IsExact op op' x y) (hx : value x = .finite p)
    (hy : value y = .finite q) : value (op x y) = .finite (op' p q) := by
  obtain ⟨p', q', hx', hy', h⟩ := h
  obtain rfl := Value.finite.inj (hx.symm.trans hx')
  obtain rfl := Value.finite.inj (hy.symm.trans hy')
  exact h

/-- Two exact products, joined by an exact operation, give the value of the result. -/
lemma IsExactJoin.value_eq {a b c d : Float} {p q r s : ℚ} (h : IsExactJoin op op' a b c d)
    (ha : value a = .finite p) (hb : value b = .finite q) (hc : value c = .finite r)
    (hd : value d = .finite s) : value (op (a * b) (c * d)) = .finite (op' (p * q) (r * s)) :=
  h.join.value_eq (h.left.value_eq ha hb) (h.right.value_eq hc hd)

/-- It can be decided by evaluation whether an operation on two doubles is exact. -/
instance (op : Float → Float → Float) (op' : ℚ → ℚ → ℚ) (x y : Float) :
    Decidable (IsExact op op' x y) :=
  match hx : value x, hy : value y with
  | .finite p, .finite q =>
    decidable_of_iff (value (op x y) = .finite (op' p q))
      ⟨fun h => ⟨p, q, hx, hy, h⟩, fun h => h.value_eq hx hy⟩
  | .nan, _ | .infinite _, _ => .isFalse fun ⟨_, _, h, _⟩ => nomatch hx.symm.trans h
  | .finite _, .nan | .finite _, .infinite _ =>
    .isFalse fun ⟨_, _, _, h, _⟩ => nomatch hy.symm.trans h

/-- It can be decided by evaluation whether two joined products are exact. -/
instance (op : Float → Float → Float) (op' : ℚ → ℚ → ℚ) (a b c d : Float) :
    Decidable (IsExactJoin op op' a b c d) :=
  decidable_of_iff (IsExact (· * ·) (· * ·) a b ∧ IsExact (· * ·) (· * ·) c d ∧
      IsExact op op' (a * b) (c * d))
    ⟨fun ⟨hl, hr, hj⟩ => ⟨hl, hr, hj⟩, fun h => ⟨h.left, h.right, h.join⟩⟩

end

end Binary64

/-- The value of a vector, from those of its coordinates. -/
lemma Vec2.map_eq_finite {v : Vec2 Float} {w : Vec2 ℚ} :
    v.map value = w.map .finite ↔ value v.x = .finite w.x ∧ value v.y = .finite w.y := by
  rw [Vec2.map, Vec2.map, Vec2.mk.injEq]

/-- Rational vectors with the same finite values are equal. -/
lemma Vec2.map_finite_inj {v w : Vec2 ℚ} : v.map Value.finite = w.map Value.finite ↔ v = w := by
  cases v
  cases w
  simp only [Vec2.map, Vec2.mk.injEq, Value.finite.injEq]

namespace Mat2

section

variable {n : Mat2 ℚ}

/-- Over the rationals, Cramer's rule gives a solution. -/
theorem apply_cramer (h : n.det ≠ 0) (s : Vec2 ℚ) : n.apply (n.cramer s) = s := by
  cases s with
  | mk sx sy =>
    unfold cramer apply
    congr 1
    · rw [mul_div_assoc', mul_div_assoc', ← add_div, div_eq_iff h]
      unfold det
      ring
    · rw [mul_div_assoc', mul_div_assoc', ← add_div, div_eq_iff h]
      unfold det
      ring

/-- Every solution is that of Cramer's rule. -/
theorem cramer_apply (h : n.det ≠ 0) (w : Vec2 ℚ) : n.cramer (n.apply w) = w := by
  cases w with
  | mk wx wy =>
    unfold cramer apply
    congr 1
    · rw [div_eq_iff h]
      unfold det
      ring
    · rw [div_eq_iff h]
      unfold det
      ring

end

variable {m : Mat2 Float} {n : Mat2 ℚ} {r v : Vec2 Float} {s w : Vec2 ℚ}

/-- No operation of the determinant and of Cramer's rule rounds. -/
structure IsExactFor (m : Mat2 Float) (r : Vec2 Float) : Prop where
  det : IsExactJoin (· - ·) (· - ·) m.a m.d m.b m.c
  dividend_x : IsExactJoin (· - ·) (· - ·) r.x m.d m.b r.y
  dividend_y : IsExactJoin (· - ·) (· - ·) m.a r.y r.x m.c
  quotient_x : IsExact (· / ·) (· / ·) (r.x * m.d - m.b * r.y) m.det
  quotient_y : IsExact (· / ·) (· / ·) (m.a * r.y - r.x * m.c) m.det

/-- No operation of the product of the matrix with the vector rounds. -/
structure IsExactAt (m : Mat2 Float) (v : Vec2 Float) : Prop where
  row_x : IsExactJoin (· + ·) (· + ·) m.a v.x m.b v.y
  row_y : IsExactJoin (· + ·) (· + ·) m.c v.x m.d v.y

/-- Where nothing rounds, the product of a matrix with a vector is the rational one. -/
lemma IsExactAt.map_apply (h : m.IsExactAt v) (hm : m.map value = n.map .finite)
    (hv : v.map value = w.map .finite) : (m.apply v).map value = (n.apply w).map .finite := by
  obtain ⟨ha, hb, hc, hd⟩ := map_eq_finite.mp hm
  obtain ⟨hx, hy⟩ := Vec2.map_eq_finite.mp hv
  exact Vec2.map_eq_finite.mpr ⟨h.row_x.value_eq ha hx hb hy, h.row_y.value_eq hc hx hd hy⟩

namespace IsExactFor

/-- What does not round is about numbers. -/
lemma exists_values (h : m.IsExactFor r) :
    ∃ (n : Mat2 ℚ) (s : Vec2 ℚ), m.map value = n.map .finite ∧ r.map value = s.map .finite := by
  obtain ⟨a, d, ha, hd, -⟩ := h.det.left
  obtain ⟨b, c, hb, hc, -⟩ := h.det.right
  obtain ⟨x, -, hx, -⟩ := h.dividend_x.left
  obtain ⟨-, y, -, hy, -⟩ := h.dividend_x.right
  exact ⟨⟨a, b, c, d⟩, ⟨x, y⟩, map_eq_finite.mpr ⟨ha, hb, hc, hd⟩,
    Vec2.map_eq_finite.mpr ⟨hx, hy⟩⟩

/-- Where nothing rounds, the determinant is the rational one. -/
lemma value_det (h : m.IsExactFor r) (hm : m.map value = n.map .finite) :
    value m.det = .finite n.det := by
  obtain ⟨ha, hb, hc, hd⟩ := map_eq_finite.mp hm
  exact h.det.value_eq ha hd hb hc

/-- Where nothing rounds, Cramer's rule gives the rational solution. -/
lemma map_cramer (h : m.IsExactFor r) (hm : m.map value = n.map .finite)
    (hr : r.map value = s.map .finite) : (m.cramer r).map value = (n.cramer s).map .finite := by
  obtain ⟨ha, hb, hc, hd⟩ := map_eq_finite.mp hm
  obtain ⟨hx, hy⟩ := Vec2.map_eq_finite.mp hr
  have hdet := h.value_det hm
  have hdx := h.dividend_x.value_eq hx hd hb hy
  have hdy := h.dividend_y.value_eq ha hy hx hc
  exact Vec2.map_eq_finite.mpr ⟨h.quotient_x.value_eq hdx hdet, h.quotient_y.value_eq hdy hdet⟩

/-- Where nothing rounds, a matrix that does not count as singular has a determinant other than
zero. -/
lemma det_ne_zero (h : m.IsExactFor r) (hm : m.map value = n.map .finite)
    (hs : m.isSingular = false) : n.det ≠ 0 := by
  obtain ⟨δ, hδ, h0⟩ := exists_det hs
  obtain rfl := Value.finite.inj (hδ.symm.trans (h.value_det hm))
  exact h0

/-- An answer of Cramer's rule without roundings is the solution, and the only one. -/
theorem solution (h : m.IsExactFor r) (hs : m.solve r = some v) (hm : m.map value = n.map .finite)
    (hr : r.map value = s.map .finite) :
    ∃ w : Vec2 ℚ, v.map value = w.map .finite ∧ n.apply w = s ∧ ∀ w', n.apply w' = s → w' = w := by
  obtain ⟨-, hns, rfl, -⟩ := solve_eq_some hs
  have h0 := h.det_ne_zero hm hns
  refine ⟨n.cramer s, h.map_cramer hm hr, apply_cramer h0 s, ?_⟩
  rintro w' rfl
  exact (cramer_apply h0 w').symm

end IsExactFor

end Mat2

end PlanarNewton
