import PlanarNewton.Proofs.Plane.Values

/-!
# The rounded determinant

A matrix of finite doubles has an exact determinant beside the one that is computed. Where the computed
one is finite, both products were, and three roundings lie between the two (`Mat2.det_spec`); since
rounding keeps the order, they have one sign unless the computed one is zero (`sign_nearest_sub`). So
Cramer's rule, which asks for a determinant other than zero, answers for no singular matrix, and it
answers for finite right-hand sides only (`Mat2.solve_only_if`).
-/

namespace PlanarNewton
open Binary64

namespace Binary64

/-- The difference of two roundings, rounded again, has the sign of the exact difference. -/
lemma sign_nearest_sub {p q : ℚ} (h : nearest (nearest p - nearest q) ≠ 0) :
    SignType.sign (p - q) = SignType.sign (nearest (nearest p - nearest q)) := by
  rcases lt_trichotomy p q with hlt | rfl | hgt
  · have hle : nearest (nearest p - nearest q) ≤ 0 :=
      nearest_nonpos (sub_nonpos.mpr (nearest_mono hlt.le))
    rw [sign_neg (sub_neg.mpr hlt), sign_neg (hle.lt_of_ne h)]
  · rw [sub_self, nearest_zero] at h
    exact absurd rfl h
  · have hle : 0 ≤ nearest (nearest p - nearest q) :=
      nearest_nonneg (sub_nonneg.mpr (nearest_mono hgt.le))
    rw [sign_pos (sub_pos.mpr hgt), sign_pos (hle.lt_of_ne' h)]

/-- The factors of a finite product are finite. -/
lemma Value.exists_finite_of_mul {x y : Value} {r : ℚ} (h : x.mul y = .finite r) :
    ∃ p q, x = .finite p ∧ y = .finite q ∧ Value.round (p * q) = .finite r := by
  cases x with
  | nan => cases h
  | infinite s =>
    cases y with
    | nan => cases h
    | infinite t => cases h
    | finite q =>
      change (if q = 0 then _ else _) = _ at h
      split at h <;> cases h
  | finite p =>
    cases y with
    | nan => cases h
    | infinite t =>
      change (if p = 0 then _ else _) = _ at h
      split at h <;> cases h
    | finite q => exact ⟨p, q, rfl, rfl, h⟩

/-- The dividend of a finite quotient by a finite number is finite. -/
lemma Value.exists_finite_of_div {x : Value} {d r : ℚ} (h : x.div (.finite d) = .finite r) :
    ∃ p, x = .finite p := by
  cases x with
  | nan => cases h
  | infinite s =>
    change (if d = 0 then _ else _) = _ at h
    split at h <;> cases h
  | finite p => exact ⟨p, rfl⟩

end Binary64

namespace Mat2

variable {m : Mat2 Float} {n : Mat2 ℚ}

/-- The value of a matrix, from those of its entries. -/
lemma map_eq_finite : m.map value = n.map .finite ↔ value m.a = .finite n.a ∧
    value m.b = .finite n.b ∧ value m.c = .finite n.c ∧ value m.d = .finite n.d := by
  rw [map, map, Mat2.mk.injEq]

/-- A matrix without NaN and infinities consists of rationals. -/
lemma exists_exact (h : m.isFinite = true) : ∃ n : Mat2 ℚ, m.map value = n.map .finite := by
  simp only [isFinite, Bool.and_eq_true] at h
  obtain ⟨⟨⟨ha, hb⟩, hc⟩, hd⟩ := h
  obtain ⟨a, ha⟩ := exists_finite ha
  obtain ⟨b, hb⟩ := exists_finite hb
  obtain ⟨c, hc⟩ := exists_finite hc
  obtain ⟨d, hd⟩ := exists_finite hd
  exact ⟨⟨a, b, c, d⟩, map_eq_finite.mpr ⟨ha, hb, hc, hd⟩⟩

/-- A determinant that is finite comes from the two products by three roundings. -/
lemma det_spec {δ : ℚ} (hm : m.map value = n.map .finite) (hδ : value m.det = .finite δ) :
    Value.round (n.a * n.d) = .finite (nearest (n.a * n.d)) ∧
    Value.round (n.b * n.c) = .finite (nearest (n.b * n.c)) ∧
    δ = nearest (nearest (n.a * n.d) - nearest (n.b * n.c)) := by
  have hdet : (Value.round (n.a * n.d)).add (Value.round (n.b * n.c)).neg = .finite δ := by
    rw [← hδ, ← m.det_map, hm]
    rfl
  obtain ⟨p, q, hp, hq, hr⟩ := exists_finite_of_add hdet
  have hq' : Value.round (n.b * n.c) = .finite (-q) := by
    rw [← Value.neg_neg (Value.round _), hq]
    rfl
  obtain rfl := eq_nearest_of_round hp
  obtain rfl : q = -nearest (n.b * n.c) := by rw [← eq_nearest_of_round hq', neg_neg]
  rw [← sub_eq_add_neg] at hr
  exact ⟨hp, by rwa [neg_neg] at hq', eq_nearest_of_round hr⟩

/-- A matrix that is not singular has a determinant that is finite, and other than zero. -/
lemma exists_det (h : m.isSingular = false) : ∃ δ, value m.det = .finite δ ∧ δ ≠ 0 := by
  have hf : m.det.isFinite = true := by
    have h' := (Bool.or_eq_false_iff.mp h).1
    rwa [Bool.not_eq_false'] at h'
  obtain ⟨δ, hδ⟩ := exists_finite hf
  refine ⟨δ, hδ, ?_⟩
  rintro rfl
  exact m.det_ne_zero h hδ

/-- Cramer's rule gives a finite vector for a finite right-hand side only. -/
lemma isFinite_of_cramer {r : Vec2 Float} {δ : ℚ} (hδ : value m.det = .finite δ) (h0 : δ ≠ 0)
    (h : (m.cramer r).isFinite = true) : r.isFinite = true := by
  have hne : value m.det ≠ .finite 0 := by
    rw [hδ]
    exact fun h => h0 (Value.finite.inj h)
  obtain ⟨x, hx⟩ := exists_finite (Bool.and_eq_true_iff.mp h).1
  -- The first component of the solution contains both sides of the system.
  change value ((r.x * m.d - m.b * r.y) / m.det) = _ at hx
  rw [value_div hne, hδ] at hx
  obtain ⟨p, hp⟩ := Value.exists_finite_of_div hx
  rw [value_sub, value_mul, value_mul] at hp
  obtain ⟨s, t, hs, ht, -⟩ := exists_finite_of_add hp
  have ht' : (value m.b).mul (value r.y) = .finite (-t) := by
    rw [← Value.neg_neg ((value m.b).mul _), ht]
    rfl
  obtain ⟨_, _, hrx, -, -⟩ := Value.exists_finite_of_mul hs
  obtain ⟨_, _, -, hry, -⟩ := Value.exists_finite_of_mul ht'
  exact Bool.and_eq_true_iff.mpr ⟨isFinite_of_value hrx, isFinite_of_value hry⟩

/-- What stands behind an answer of Cramer's rule. -/
lemma solve_eq_some {r v : Vec2 Float} (h : m.solve r = some v) :
    m.isFinite = true ∧ m.isSingular = false ∧ v = m.cramer r ∧ v.isFinite = true := by
  unfold solve at h
  split at h
  · cases h
  · rename_i hc
    rw [Bool.or_eq_true, not_or, Bool.not_eq_true, Bool.not_eq_true, Bool.not_eq_false'] at hc
    dsimp only at h
    split at h
    · cases h
      exact ⟨hc.1, hc.2, rfl, ‹_›⟩
    · cases h

/--
Cramer's rule answers only where everything is finite, the matrix with its right-hand side, the computed
determinant and the answer, and where it did not divide by zero. The exact determinant then has the sign
of the computed one. So there is no answer for a singular matrix, whatever its products round to.
-/
theorem solve_only_if (m : Mat2 Float) (r : Vec2 Float) :
    (∀ v, m.solve r = some v →
      m.isFinite = true ∧ r.isFinite = true ∧ v.isFinite = true ∧ m.det.isFinite = true ∧
      m.det ≠ 0.0 ∧ m.det ≠ -0.0 ∧
      ∃ n : Mat2 ℚ, ∃ δ : ℚ, m.map value = n.map .finite ∧ value m.det = .finite δ ∧
        n.a * n.d - n.b * n.c ≠ 0 ∧ SignType.sign (n.a * n.d - n.b * n.c) = SignType.sign δ) ∧
    ∀ n : Mat2 ℚ, m.map value = n.map .finite → n.a * n.d - n.b * n.c = 0 → m.solve r = none := by
  have hanswer {v} (h : m.solve r = some v) {n : Mat2 ℚ} (hm : m.map value = n.map .finite) :
      ∃ δ, value m.det = .finite δ ∧ δ ≠ 0 ∧
        SignType.sign (n.a * n.d - n.b * n.c) = SignType.sign δ := by
    obtain ⟨-, hs, -, -⟩ := solve_eq_some h
    obtain ⟨δ, hδ, h0⟩ := exists_det hs
    obtain ⟨-, -, rfl⟩ := det_spec hm hδ
    exact ⟨_, hδ, h0, sign_nearest_sub h0⟩
  constructor
  · intro v h
    obtain ⟨hf, hs, rfl, hv⟩ := solve_eq_some h
    obtain ⟨n, hm⟩ := exists_exact hf
    obtain ⟨δ, hδ, h0, hsign⟩ := hanswer h hm
    have hdet : ¬(m.det = 0.0 ∨ m.det = -0.0) := by
      rw [← value_eq_zero, hδ]
      exact fun h => h0 (Value.finite.inj h)
    rw [not_or] at hdet
    refine ⟨hf, isFinite_of_cramer hδ h0 hv, hv, isFinite_of_value hδ, hdet.1, hdet.2, n, δ, hm, hδ,
      ?_, hsign⟩
    rwa [← sign_ne_zero, hsign, sign_ne_zero]
  · intro n hm hn
    by_contra h
    obtain ⟨v, h⟩ := Option.ne_none_iff_exists'.mp h
    obtain ⟨δ, -, h0, hsign⟩ := hanswer h hm
    rw [hn, sign_zero] at hsign
    exact h0 (sign_eq_zero_iff.mp hsign.symm)

/--
The products of the first matrix are subnormal numbers, and there is an answer. The products of the
second one overflow; it is singular, and there is none.
-/
theorem solve_only_if_extreme :
    ((⟨3e-160, 1e-160, 1e-160, 2e-160⟩ : Mat2 Float).solve ⟨5e-160, 5e-160⟩ = some ⟨1.0, 2.0⟩ ∧
      (⟨3e-160, 1e-160, 1e-160, 2e-160⟩ : Mat2 Float).det ≠ 0.0 ∧
      ∃ n : Mat2 ℚ, (⟨3e-160, 1e-160, 1e-160, 2e-160⟩ : Mat2 Float).map value = n.map .finite ∧
        n.a * n.d - n.b * n.c ≠ 0) ∧
    (⟨1e200, 1e200, 1e200, 1e200⟩ : Mat2 Float).solve ⟨1.0, 1.0⟩ = none := by
  have h : (⟨3e-160, 1e-160, 1e-160, 2e-160⟩ : Mat2 Float).solve ⟨5e-160, 5e-160⟩ =
      some ⟨1.0, 2.0⟩ := by decide +kernel
  obtain ⟨-, -, -, -, hdet, -, n, δ, hm, -, hn, -⟩ := (solve_only_if _ _).1 _ h
  obtain ⟨q, hq⟩ : ∃ q, value 1e200 = .finite q := exists_finite (by decide +kernel)
  have hlarge : (⟨1e200, 1e200, 1e200, 1e200⟩ : Mat2 Float).map value =
      (⟨q, q, q, q⟩ : Mat2 ℚ).map .finite := map_eq_finite.mpr ⟨hq, hq, hq, hq⟩
  exact ⟨⟨h, hdet, n, hm, hn⟩, (solve_only_if _ _).2 _ hlarge (sub_self _)⟩

end Mat2

end PlanarNewton
