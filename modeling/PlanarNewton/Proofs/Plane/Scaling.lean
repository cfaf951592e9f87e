import PlanarNewton.Proofs.Binary64.Increment
import PlanarNewton.Proofs.Binary64.Scaling
import PlanarNewton.Proofs.Plane.Determinant

/-!
# Singularity and scale

Whether a matrix counts as singular is a question about the two products of its determinant: is their
rounded difference no more than their rounding noise (`IsNoise`, `Mat2.isSingular_iff`)? Multiplying the
matrix by a power of two multiplies all numbers in this question alike, so the answer stays the same
(`Mat2.isSingular_scaled`), as long as the determinant does not overflow and the larger product does not
fall below `2 ^ -970`. At both ends of this range the answer does depend on the scale
(`Mat2.isSingular_out_of_scale`).
-/

namespace PlanarNewton
open Binary64 Float.Model.UnpackedFloat

namespace Binary64

/-- The difference of two products is at most one part in `2 ^ 52` of the larger one, all rounded. -/
def IsNoise (p q : ℚ) : Prop :=
  |nearest (nearest p - nearest q)| ≤ nearest (2 ^ (-52 : ℤ) * max |nearest p| |nearest q|)

/-- A sign can be given to the first factor. -/
lemma signed_mul_right (s : Sign) (p q : ℚ) : signed s (p * q) = signed s p * q := by
  cases s
  · exact (neg_mul p q).symm
  · rfl

/-- A double with the same mantissa is a multiple by a power of two. -/
lemma value_scaled {x y : Float} {s : Sign} {m : ℕ} {e k : ℤ} {hm : 0 < m}
    (hx : x.toModel.unpack = .finite s m e hm) (hy : y.toModel.unpack = .finite s m (e + k) hm)
    {q : ℚ} (hq : value x = .finite q) : value y = .finite (q * 2 ^ k) := by
  rw [value_of_unpack hx] at hq
  rw [value_of_unpack hy, ← Value.finite.inj hq, zpow_add₀ (by norm_num), ← mul_assoc,
    signed_mul_right]

/-- Noise does not depend on the order of the two products. -/
lemma isNoise_comm {p q : ℚ} : IsNoise p q ↔ IsNoise q p := by
  rw [IsNoise, IsNoise, max_comm, ← neg_sub, nearest_neg, abs_neg]

/-- Rounding keeps the order of absolute values. -/
lemma abs_nearest_le {p q : ℚ} (h : |q| ≤ |p|) : |nearest q| ≤ |nearest p| := by
  rw [abs_nearest, abs_nearest]
  exact nearest_mono h

/-- Beside a product that is much smaller, the larger one is no noise. -/
lemma not_isNoise {p q : ℚ} (hp : 2 ^ (-1022 : ℤ) ≤ |p|) (hq : |q| ≤ 2 ^ (-52 : ℤ) * |p|) :
    ¬IsNoise p q := by
  have hmin := neg_1074_le_lastPlace p
  have hplace := two_zpow_lastPlace_le hp
  have hlt := abs_lt_two_zpow p
  generalize lastPlace p = t at hmin hplace hlt
  have hpos : (0 : ℚ) < 2 ^ t := by positivity
  have h53 : (2 : ℚ) ^ (-52 : ℤ) * 2 ^ (t + 53) = 2 ^ (t + 1) := by
    rw [← zpow_add₀ (by norm_num)]
    congr 1
    ring
  -- In units of the last place of `p`: the products are about `2 ^ 52` and at most 2.
  have hp1 : 2 ^ (t + 52) ≤ |nearest p| := by
    rw [abs_nearest]
    exact le_nearest_of_le (representable_two_zpow (by omega)) hplace
  have hp2 : |nearest p| ≤ 2 ^ (t + 53) := by
    rw [abs_nearest]
    exact nearest_le_of_le (representable_two_zpow (by omega)) hlt.le
  have hq1 : |nearest q| ≤ 2 ^ (t + 1) := by
    rw [abs_nearest]
    refine nearest_le_of_le (representable_two_zpow (by omega)) (hq.trans ?_)
    rw [← h53]
    gcongr
  have hle : |q| ≤ |p| := hq.trans (mul_le_of_le_one_left (abs_nonneg p) (by norm_num))
  have h1 : (2 : ℚ) ^ (t + 1) = ((2 ^ 1 : ℤ) : ℚ) * 2 ^ t := two_zpow_add t 1
  have h51 : (2 : ℚ) ^ (t + 51) = ((2 ^ 51 : ℤ) : ℚ) * 2 ^ t := two_zpow_add t 51
  have h52 : (2 : ℚ) ^ (t + 52) = ((2 ^ 52 : ℤ) : ℚ) * 2 ^ t := two_zpow_add t 52
  have hdiff : 2 ^ (t + 51) ≤ |nearest (nearest p - nearest q)| := by
    rw [abs_nearest]
    refine le_nearest_of_le (representable_two_zpow (by omega)) ?_
    refine le_trans ?_ (abs_sub_abs_le_abs_sub _ _)
    rw [h51]
    rw [h52] at hp1
    rw [h1] at hq1
    push_cast at hp1 hq1 ⊢
    linarith
  have hnoise : nearest (2 ^ (-52 : ℤ) * max |nearest p| |nearest q|) ≤ 2 ^ (t + 1) := by
    rw [max_eq_left (abs_nearest_le hle)]
    refine nearest_le_of_le (representable_two_zpow (by omega)) ?_
    rw [← h53]
    gcongr
  intro h
  have := hdiff.trans (h.trans hnoise)
  rw [h51, h1] at this
  push_cast at this
  linarith

/-- From `2 ^ -970` on, the noise of a product is of normal size. -/
lemma le_noise {q : ℚ} (h : 2 ^ (-970 : ℤ) ≤ q) : 2 ^ (-1022 : ℤ) ≤ 2 ^ (-52 : ℤ) * q :=
  calc (2 : ℚ) ^ (-1022 : ℤ) = 2 ^ (-52 : ℤ) * 2 ^ (-970 : ℤ) := by
        rw [← zpow_add₀ (by norm_num)]
        norm_num
    _ ≤ 2 ^ (-52 : ℤ) * q := by gcongr

/-- A power of two can be taken out of the noise of a product. -/
lemma nearest_noise_mul {p : ℚ} {j : ℤ} (h : 2 ^ (-970 : ℤ) ≤ |p|)
    (h' : 2 ^ (-970 : ℤ) ≤ |p * 2 ^ j|) (hp : nearest (p * 2 ^ j) = nearest p * 2 ^ j) :
    nearest (2 ^ (-52 : ℤ) * |nearest (p * 2 ^ j)|) =
      nearest (2 ^ (-52 : ℤ) * |nearest p|) * 2 ^ j := by
  -- The noise of a product from `2 ^ -970` on does not underflow.
  have hnoise {p : ℚ} (h : 2 ^ (-970 : ℤ) ≤ |p|) : ¬Underflows (2 ^ (-52 : ℤ) * |nearest p|) := by
    apply not_underflows_of_le
    have hle : 2 ^ (-970 : ℤ) ≤ |nearest p| := by
      rw [abs_nearest]
      exact le_nearest_of_le (representable_two_zpow (by norm_num)) h
    rw [abs_of_nonneg (by positivity)]
    exact le_noise hle
  have hout : 2 ^ (-52 : ℤ) * |nearest (p * 2 ^ j)| = 2 ^ (-52 : ℤ) * |nearest p| * 2 ^ j := by
    rw [hp, abs_mul_zpow, mul_assoc]
  rw [hout]
  exact nearest_mul_two_zpow (hnoise h) (hout ▸ hnoise h')

/-- Where the larger product is not too small, noise is judged relative to its size. -/
lemma isNoise_mul_two_zpow {p q : ℚ} {j : ℤ} (hqp : |q| ≤ |p|) (h : 2 ^ (-970 : ℤ) ≤ |p|)
    (h' : 2 ^ (-970 : ℤ) ≤ |p * 2 ^ j|) : IsNoise (p * 2 ^ j) (q * 2 ^ j) ↔ IsNoise p q := by
  have hpos : (0 : ℚ) < 2 ^ j := by positivity
  have hnormal : (2 : ℚ) ^ (-1022 : ℤ) ≤ 2 ^ (-970 : ℤ) :=
    zpow_le_zpow_right₀ (by norm_num) (by norm_num)
  have hsmall : |q| ≤ 2 ^ (-52 : ℤ) * |p| ↔ |q * 2 ^ j| ≤ 2 ^ (-52 : ℤ) * |p * 2 ^ j| := by
    rw [abs_mul_zpow, abs_mul_zpow, ← mul_assoc, mul_le_mul_iff_left₀ hpos]
  by_cases hq : |q| ≤ 2 ^ (-52 : ℤ) * |p|
  · exact iff_of_false (not_isNoise (hnormal.trans h') (hsmall.mp hq))
      (not_isNoise (hnormal.trans h) hq)
  · -- Neither product underflows, and their difference never does.
    have hq' := hsmall.not.mp hq
    rw [not_le] at hq hq'
    have hp := nearest_mul_two_zpow_of_le (hnormal.trans h) (hnormal.trans h')
    have hq := nearest_mul_two_zpow_of_le ((le_noise h).trans hq.le) ((le_noise h').trans hq'.le)
    have hsub := not_underflows_sub (representable_nearest (p * 2 ^ j))
      (representable_nearest (q * 2 ^ j))
    have hle : |q * 2 ^ j| ≤ |p * 2 ^ j| := by
      rw [abs_mul_zpow, abs_mul_zpow]
      gcongr
    rw [IsNoise, IsNoise, max_eq_left (abs_nearest_le hqp), max_eq_left (abs_nearest_le hle),
      nearest_noise_mul h h' hp]
    rw [hp, hq, ← sub_mul] at hsub ⊢
    rw [nearest_mul_two_zpow (not_underflows_sub (representable_nearest p) (representable_nearest q))
      hsub, abs_mul_zpow, mul_le_mul_iff_left₀ hpos]

/-- Noise is judged relative to the size of the products, which may be zero but not too small. -/
theorem isNoise_scaled {p q : ℚ} {j : ℤ} (h : max |p| |q| = 0 ∨ 2 ^ (-970 : ℤ) ≤ max |p| |q|)
    (h' : max |p * 2 ^ j| |q * 2 ^ j| = 0 ∨ 2 ^ (-970 : ℤ) ≤ max |p * 2 ^ j| |q * 2 ^ j|) :
    IsNoise (p * 2 ^ j) (q * 2 ^ j) ↔ IsNoise p q := by
  wlog hqp : |q| ≤ |p| generalizing p q
  · rw [isNoise_comm, isNoise_comm (p := p)]
    rw [max_comm] at h h'
    exact this h h' (le_of_not_ge hqp)
  have hpos : (0 : ℚ) < 2 ^ j := by positivity
  have hle : |q * 2 ^ j| ≤ |p * 2 ^ j| := by
    rw [abs_mul_zpow, abs_mul_zpow]
    gcongr
  rw [max_eq_left hqp, abs_eq_zero] at h
  rw [max_eq_left hle, abs_eq_zero, mul_eq_zero_iff_right hpos.ne'] at h'
  by_cases hp : p = 0
  · obtain rfl : q = 0 := by rwa [hp, abs_zero, abs_nonpos_iff] at hqp
    rw [hp, zero_mul]
  · exact isNoise_mul_two_zpow hqp (h.resolve_left hp) (h'.resolve_left hp)

end Binary64

namespace Mat2

variable {m m' : Mat2 Float} {n : Mat2 ℚ}

/-- The larger of the two products of the determinant. -/
def size (n : Mat2 ℚ) : ℚ :=
  max |n.a * n.d| |n.b * n.c|

/-- A matrix whose determinant is finite is singular if its products differ by noise only. -/
lemma isSingular_iff (hm : m.map value = n.map .finite) (hf : m.det.isFinite = true) :
    m.isSingular = true ↔ IsNoise (n.a * n.d) (n.b * n.c) := by
  obtain ⟨δ, hδ⟩ := exists_finite hf
  obtain ⟨hp, hq, rfl⟩ := det_spec hm hδ
  obtain ⟨ha, hb, hc, hd⟩ := Mat2.mk.inj hm
  have hscale : value (larger (m.a * m.d).abs (m.b * m.c).abs) =
      .finite (max |nearest (n.a * n.d)| |nearest (n.b * n.c)|) := by
    rw [value_larger, value_abs, value_abs, value_mul, value_mul, ha, hb, hc, hd]
    show (Value.round _).abs.larger (Value.round _).abs = _
    rw [hp, hq]
    exact Value.larger_finite _ _
  have hle : m.isSingular = true ↔
      m.det.abs ≤ epsilon * larger (m.a * m.d).abs (m.b * m.c).abs := by
    show (!m.det.isFinite || decide _) = true ↔ _
    rw [hf]
    exact decide_eq_true_iff
  -- The noise is smaller than the larger product, so it does not overflow.
  obtain ⟨hrep, hlimit⟩ := finite_spec hscale
  have hnonneg : 0 ≤ max |nearest (n.a * n.d)| |nearest (n.b * n.c)| :=
    (abs_nonneg _).trans (le_max_left _ _)
  have hnoise := (round_of_mem representable_zero hrep abs_zero_lt_limit hlimit
    (mul_nonneg (by positivity) hnonneg)
    (mul_le_of_le_one_left hnonneg (by norm_num : (2 : ℚ) ^ (-52 : ℤ) ≤ 1))).1
  rw [hle, le_iff, value_abs, hδ, value_mul, value_epsilon, hscale]
  show (Value.finite _).le (Value.round _) = true ↔ _
  rw [hnoise, Value.finite_le]
  rfl

/--
A matrix with a determinant that is not finite always counts as singular. Otherwise the answer does not
depend on the scale of the matrix, for products of which the larger one is zero or at least `2 ^ -970`.
-/
theorem isSingular_scaled :
    (∀ m : Mat2 Float, m.det.isFinite = false → m.isSingular = true) ∧
    ∀ (m m' : Mat2 Float) (n : Mat2 ℚ) (k : ℤ), m.map value = n.map .finite →
      m'.map value = (n.map (· * 2 ^ k)).map .finite →
      m.det.isFinite = true → m'.det.isFinite = true →
      (n.size = 0 ∨ 2 ^ (-970 : ℤ) ≤ n.size) →
      ((n.map (· * 2 ^ k)).size = 0 ∨ 2 ^ (-970 : ℤ) ≤ (n.map (· * 2 ^ k)).size) →
      m'.isSingular = m.isSingular := by
  constructor
  · intro m hf
    show (!m.det.isFinite || decide _) = true
    rw [hf]
    rfl
  · intro m m' n k hm hm' hf hf' hs hs'
    have hp : (n.map (· * 2 ^ k)).a * (n.map (· * 2 ^ k)).d = n.a * n.d * 2 ^ (k + k) := by
      rw [zpow_add₀ (by norm_num)]
      exact mul_mul_mul_comm _ _ _ _
    have hq : (n.map (· * 2 ^ k)).b * (n.map (· * 2 ^ k)).c = n.b * n.c * 2 ^ (k + k) := by
      rw [zpow_add₀ (by norm_num)]
      exact mul_mul_mul_comm _ _ _ _
    rw [Bool.eq_iff_iff, isSingular_iff hm hf, isSingular_iff hm' hf', hp, hq]
    rw [size] at hs
    rw [size, hp, hq] at hs'
    exact isNoise_scaled hs hs'

/-- The matrix with the rows `1 2` and `3 4`, multiplied by `2 ^ -480`. -/
def small : Mat2 Float :=
  ⟨.ofBits 0x21F0000000000000, .ofBits 0x2200000000000000, .ofBits 0x2208000000000000,
    .ofBits 0x2210000000000000⟩

/-- Very small numbers are judged like those from 1 to 4. -/
theorem small_scaled :
    small.isSingular = (⟨1.0, 2.0, 3.0, 4.0⟩ : Mat2 Float).isSingular ∧ small.isSingular = false := by
  obtain ⟨s, h2⟩ : ∃ s, value 2.0 = .finite s := exists_finite (by decide +kernel)
  obtain ⟨t, h3⟩ : ∃ t, value 3.0 = .finite t := exists_finite (by decide +kernel)
  have h4 : value 4.0 = .finite 4 := by
    have h : (4.0 : Float).toModel.unpack = .finite .positive (2 ^ 52) (-50) (by norm_num) := rfl
    rw [value_of_unpack h, signed_positive]
    norm_num
  have h1' : value (Float.ofBits 0x21F0000000000000) = .finite (1 * 2 ^ (-480 : ℤ)) :=
    value_scaled rfl rfl value_one
  have h2' : value (Float.ofBits 0x2200000000000000) = .finite (s * 2 ^ (-480 : ℤ)) :=
    value_scaled rfl rfl h2
  have h3' : value (Float.ofBits 0x2208000000000000) = .finite (t * 2 ^ (-480 : ℤ)) :=
    value_scaled rfl rfl h3
  have h4' : value (Float.ofBits 0x2210000000000000) = .finite (4 * 2 ^ (-480 : ℤ)) :=
    value_scaled rfl rfl h4
  have hsize (k : ℤ) (hk : -486 ≤ k) :
      2 ^ (-970 : ℤ) ≤ (⟨1 * 2 ^ k, s * 2 ^ k, t * 2 ^ k, 4 * 2 ^ k⟩ : Mat2 ℚ).size := by
    refine le_max_of_le_left ((le_abs_self _).trans' ?_)
    calc (2 : ℚ) ^ (-970 : ℤ) ≤ 2 ^ (k + k + 2) := zpow_le_zpow_right₀ (by norm_num) (by omega)
      _ = 2 ^ k * 2 ^ k * 2 ^ (2 : ℤ) := by
        rw [zpow_add₀ (by norm_num), zpow_add₀ (by norm_num)]
      _ = 1 * 2 ^ k * (4 * 2 ^ k) := by ring
  have hsize1 := hsize 0 (by norm_num)
  simp only [zpow_zero, mul_one] at hsize1
  have hm : (⟨1.0, 2.0, 3.0, 4.0⟩ : Mat2 Float).map value = (⟨1, s, t, 4⟩ : Mat2 ℚ).map .finite :=
    map_eq_finite.mpr ⟨value_one, h2, h3, h4⟩
  have hm' : small.map value =
      ((⟨1, s, t, 4⟩ : Mat2 ℚ).map (· * 2 ^ (-480 : ℤ))).map .finite :=
    map_eq_finite.mpr ⟨h1', h2', h3', h4'⟩
  have h := isSingular_scaled.2 _ _ _ _ hm hm' (by decide +kernel) (by decide +kernel)
    (.inr hsize1) (.inr (hsize _ (by norm_num)))
  exact ⟨h, by decide +kernel⟩

/-- The identity, multiplied. -/
def diagonal (x : Float) : Mat2 Float :=
  ⟨x, 0.0, 0.0, x⟩

/-- A matrix, multiplied by a power of two without rounding. -/
def IsScaled (k : ℤ) (m m' : Mat2 Float) : Prop :=
  ∃ n : Mat2 ℚ, m.map value = n.map .finite ∧ m'.map value = (n.map (· * 2 ^ k)).map .finite

/-- Doubles that are scaled from one scale the identity. -/
lemma isScaled_diagonal {x : Float} {k : ℤ} (h : value x = .finite (1 * 2 ^ k)) :
    IsScaled k (diagonal 1.0) (diagonal x) := by
  have hzero : value 0.0 = .finite (0 * 2 ^ k) := by
    rw [zero_mul]
    rfl
  exact ⟨⟨1, 0, 0, 1⟩, map_eq_finite.mpr ⟨value_one, rfl, rfl, value_one⟩,
    map_eq_finite.mpr ⟨h, hzero, hzero, h⟩⟩

/-- Two rows that are nearly parallel. -/
def steep : Mat2 Float :=
  ⟨4503599627370495.5, 4503599627370494.5, 1.0, 1.0⟩

/-- The rows of `steep`, multiplied by `2 ^ -511`. -/
def steepScaled : Mat2 Float :=
  ⟨.ofBits 0x233FFFFFFFFFFFFF, .ofBits 0x233FFFFFFFFFFFFD, .ofBits 0x2000000000000000,
    .ofBits 0x2000000000000000⟩

/-- The entries of the second matrix are those of the first, scaled exactly. -/
lemma isScaled_steep : IsScaled (-511) steep steepScaled := by
  obtain ⟨a, ha⟩ : ∃ a, value 4503599627370495.5 = .finite a := exists_finite (by decide +kernel)
  obtain ⟨b, hb⟩ : ∃ b, value 4503599627370494.5 = .finite b := exists_finite (by decide +kernel)
  have ha' : value (Float.ofBits 0x233FFFFFFFFFFFFF) = .finite (a * 2 ^ (-511 : ℤ)) :=
    value_scaled rfl rfl ha
  have hb' : value (Float.ofBits 0x233FFFFFFFFFFFFD) = .finite (b * 2 ^ (-511 : ℤ)) :=
    value_scaled rfl rfl hb
  have h1' : value (Float.ofBits 0x2000000000000000) = .finite (1 * 2 ^ (-511 : ℤ)) :=
    value_scaled rfl rfl value_one
  exact ⟨⟨a, b, 1, 1⟩, map_eq_finite.mpr ⟨ha, hb, value_one, value_one⟩,
    map_eq_finite.mpr ⟨ha', hb', h1', h1'⟩⟩

/--
Out of the range of `isSingular_scaled`, the answer depends on the scale. The identity counts as singular
when it is multiplied by `2 ^ 600`, where its determinant overflows, and by `2 ^ -600`, where it
underflows. The bound is sharp: a matrix becomes singular when its larger product falls to
`2 ^ -970 - 2 ^ -1023`, where the noise is not a normal number any more.
-/
theorem isSingular_out_of_scale :
    ((diagonal 1.0).isSingular = false ∧
      (IsScaled 600 (diagonal 1.0) (diagonal (.ofBits 0x6570000000000000)) ∧
        (diagonal (.ofBits 0x6570000000000000)).isSingular = true) ∧
      IsScaled (-600) (diagonal 1.0) (diagonal (.ofBits 0x1A70000000000000)) ∧
        (diagonal (.ofBits 0x1A70000000000000)).isSingular = true) ∧
    steep.isSingular = false ∧ IsScaled (-511) steep steepScaled ∧ steepScaled.isSingular = true := by
  have hlarge : value (Float.ofBits 0x6570000000000000) = .finite (1 * 2 ^ (600 : ℤ)) :=
    value_scaled rfl rfl value_one
  have htiny : value (Float.ofBits 0x1A70000000000000) = .finite (1 * 2 ^ (-600 : ℤ)) :=
    value_scaled rfl rfl value_one
  exact ⟨⟨by decide +kernel, ⟨isScaled_diagonal hlarge, by decide +kernel⟩,
    isScaled_diagonal htiny, by decide +kernel⟩, by decide +kernel, isScaled_steep,
    by decide +kernel⟩

end Mat2

end PlanarNewton
