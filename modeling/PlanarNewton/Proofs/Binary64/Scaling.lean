import PlanarNewton.Proofs.Binary64.Nearest

/-!
# Powers of two

Rounding commutes with multiplication by a power of two (`nearest_mul_two_zpow`), unless bits are lost
below the least exponent on one side only (`Underflows`). Products may lose bits there; differences of
doubles never do (`not_underflows_sub`).
-/

namespace PlanarNewton.Binary64

/-- The number is too small to have all of its 53 bits, and those it has do not make it up. -/
def Underflows (q : ℚ) : Prop :=
  |q| < 2 ^ (-1022 : ℤ) ∧ ¬Representable q

/-- A small number that keeps all its bits is a double. -/
lemma representable_of_not_underflows {q : ℚ} (h : ¬Underflows q) (hq : |q| < 2 ^ (-1022 : ℤ)) :
    Representable q := by
  by_contra hr
  exact h ⟨hq, hr⟩

/-- A number of normal size does not underflow. -/
lemma not_underflows_of_le {q : ℚ} (h : 2 ^ (-1022 : ℤ) ≤ |q|) : ¬Underflows q :=
  fun hq => hq.1.not_ge h

/-- The powers of two from the least subnormal one on are doubles. -/
lemma representable_two_zpow {e : ℤ} (he : -1074 ≤ e) : Representable (2 ^ e) :=
  ⟨1, e, by norm_num, he, by rw [Int.cast_one, one_mul]⟩

/-- Rounding commutes with the absolute value. -/
lemma abs_nearest (q : ℚ) : |nearest q| = nearest |q| := by
  rcases le_total 0 q with h | h
  · rw [abs_of_nonneg h, abs_of_nonneg (nearest_nonneg h)]
  · rw [abs_of_nonpos h, abs_of_nonpos (nearest_nonpos h), nearest_neg]

/-- From `2 ^ -1022` on, numbers have all 53 bits. -/
lemma two_zpow_lastPlace_le {q : ℚ} (h : 2 ^ (-1022 : ℤ) ≤ |q|) : 2 ^ (lastPlace q + 52) ≤ |q| := by
  rcases (neg_1074_le_lastPlace q).eq_or_lt with heq | hlt
  · rw [← heq]
    exact h
  · apply two_zpow_le_abs _ hlt
    rintro rfl
    rw [abs_zero] at h
    exact absurd h (not_le.mpr (by positivity))

/-- A power of two moves out of an absolute value. -/
lemma abs_mul_zpow (q : ℚ) (j : ℤ) : |q * 2 ^ j| = |q| * 2 ^ j := by
  rw [abs_mul, abs_of_pos (by positivity : (0 : ℚ) < 2 ^ j)]

/-- Numbers of normal size are rounded at a place that is scaled with them. -/
lemma lastPlace_mul_two_zpow {q : ℚ} {j : ℤ} (h : 2 ^ (-1022 : ℤ) ≤ |q|)
    (h' : 2 ^ (-1022 : ℤ) ≤ |q * 2 ^ j|) : lastPlace (q * 2 ^ j) = lastPlace q + j := by
  have hpos : (0 : ℚ) < 2 ^ j := by positivity
  have hlt : |q * 2 ^ j| < 2 ^ (lastPlace q + j + 53) := by
    have hexp : lastPlace q + j + 53 = lastPlace q + 53 + j := by ring
    rw [abs_mul_zpow, hexp, zpow_add₀ (by norm_num) (lastPlace q + 53)]
    exact mul_lt_mul_of_pos_right (abs_lt_two_zpow q) hpos
  have hle : 2 ^ (lastPlace q + j + 52) ≤ |q * 2 ^ j| := by
    have hexp : lastPlace q + j + 52 = lastPlace q + 52 + j := by ring
    rw [abs_mul_zpow, hexp, zpow_add₀ (by norm_num) (lastPlace q + 52)]
    exact mul_le_mul_of_nonneg_right (two_zpow_lastPlace_le h) hpos.le
  have hexp : -1022 < lastPlace q + j + 53 :=
    (zpow_lt_zpow_iff_right₀ (by norm_num)).mp (h'.trans_lt hlt)
  have hne : q * 2 ^ j ≠ 0 := abs_pos.mp (lt_of_lt_of_le (by positivity) h')
  exact lastPlace_eq hne (by omega) hlt (.inr hle)

/-- Numbers of normal size are rounded to doubles that are scaled with them. -/
lemma nearest_mul_two_zpow_of_le {q : ℚ} {j : ℤ} (h : 2 ^ (-1022 : ℤ) ≤ |q|)
    (h' : 2 ^ (-1022 : ℤ) ≤ |q * 2 ^ j|) : nearest (q * 2 ^ j) = nearest q * 2 ^ j := by
  have hpos : (2 : ℚ) ^ j ≠ 0 := by positivity
  rw [nearest, nearest, lastPlace_mul_two_zpow h h', zpow_add₀ (by norm_num),
    mul_div_mul_right _ _ hpos, mul_assoc]

/-- A double stays one when multiplied by a power of two. -/
lemma representable_mul_two_zpow {q : ℚ} (h : Representable q) {j : ℤ} (hj : 0 ≤ j) :
    Representable (q * 2 ^ j) := by
  obtain ⟨m, e, hm, he, rfl⟩ := h
  refine ⟨m, e + j, hm, by omega, ?_⟩
  rw [zpow_add₀ (by norm_num), mul_assoc]

/-- A number is as large as it has to be, or both it and its multiple are representable. -/
lemma le_or_representable {q : ℚ} {j : ℤ} (h : ¬Underflows q) (h' : ¬Underflows (q * 2 ^ j)) :
    2 ^ (-1022 : ℤ) ≤ |q| ∨ Representable q ∧ Representable (q * 2 ^ j) := by
  rcases le_or_gt (2 ^ (-1022 : ℤ)) |q| with hle | hlt
  · exact .inl hle
  · have hr := representable_of_not_underflows h hlt
    refine .inr ⟨hr, ?_⟩
    rcases le_total 0 j with hj | hj
    · exact representable_mul_two_zpow hr hj
    · apply representable_of_not_underflows h'
      rw [abs_mul_zpow]
      have h1 : (2 : ℚ) ^ j ≤ 1 := zpow_le_one_of_nonpos₀ (by norm_num) hj
      exact (mul_le_of_le_one_right (abs_nonneg q) h1).trans_lt hlt

/-- Where nothing underflows, a power of two can be taken out of a rounding. -/
theorem nearest_mul_two_zpow {q : ℚ} {j : ℤ} (h : ¬Underflows q) (h' : ¬Underflows (q * 2 ^ j)) :
    nearest (q * 2 ^ j) = nearest q * 2 ^ j := by
  have hback : q * 2 ^ j * 2 ^ (-j) = q := by
    rw [mul_assoc, ← zpow_add₀ (by norm_num), add_neg_cancel, zpow_zero, mul_one]
  obtain hle | ⟨hr, hr'⟩ := le_or_representable h h'
  · obtain hle' | ⟨hr', hr⟩ := le_or_representable (j := -j) h' (by rwa [hback])
    · exact nearest_mul_two_zpow_of_le hle hle'
    · rw [hback] at hr
      rw [nearest_of_representable hr, nearest_of_representable hr']
  · rw [nearest_of_representable hr, nearest_of_representable hr']

/-- Whole multiples of the least double are exact where they are small. -/
lemma not_underflows_mul_least (n : ℤ) : ¬Underflows (n * 2 ^ (-1074 : ℤ)) := by
  rintro ⟨hlt, hr⟩
  apply hr
  refine ⟨n, -1074, ?_, le_rfl, rfl⟩
  rw [abs_mul_two_zpow] at hlt
  have h52 : (2 : ℚ) ^ (-1022 : ℤ) = ((2 ^ 52 : ℤ) : ℚ) * 2 ^ (-1074 : ℤ) := by
    rw [← two_zpow_add]
    norm_num
  rw [h52, mul_lt_mul_iff_left₀ (by positivity)] at hlt
  have hlt' : |n| < 2 ^ 52 := by exact_mod_cast hlt
  omega

/-- A difference that is small is exact. -/
theorem not_underflows_sub {p q : ℚ} (hp : Representable p) (hq : Representable q) :
    ¬Underflows (p - q) := by
  obtain ⟨m, rfl⟩ := exists_mul_two_zpow hp
  obtain ⟨n, rfl⟩ := exists_mul_two_zpow hq
  rw [← sub_mul, ← Int.cast_sub]
  exact not_underflows_mul_least (m - n)

/-- A whole multiple of a double that is small is exact. -/
lemma not_underflows_intCast_mul (n : ℤ) {q : ℚ} (h : Representable q) : ¬Underflows (n * q) := by
  obtain ⟨m, rfl⟩ := exists_mul_two_zpow h
  rw [← mul_assoc, ← Int.cast_mul]
  exact not_underflows_mul_least (n * m)

/-- Half the distance from one to the next double. -/
def roundoff : ℚ := 1 / 2 ^ 53

/-- Where nothing underflows, rounding adds at most a small fraction. -/
theorem nearest_le_mul_one_add {q : ℚ} (h0 : 0 ≤ q) (h : ¬Underflows q) :
    nearest q ≤ q * (1 + roundoff) := by
  rcases lt_or_ge |q| (2 ^ (-1022 : ℤ)) with hlt | hle
  · rw [nearest_of_representable (representable_of_not_underflows h hlt)]
    exact le_mul_of_one_le_right h0 (by norm_num [roundoff])
  · have hplace := two_zpow_lastPlace_le hle
    have hnear := (abs_le.mp (abs_sub_nearest_le q)).1
    have h52 : (2 : ℚ) ^ (lastPlace q + 52) = _ := two_zpow_add (lastPlace q) 52
    rw [h52, abs_of_nonneg h0] at hplace
    push_cast at hplace
    rw [roundoff]
    linarith

end PlanarNewton.Binary64
