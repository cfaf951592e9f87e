import Mathlib.Data.Int.Log
import Mathlib.Tactic

/-!
# The nearest representable number

Rounding as a function of rationals: `nearest q` is the number nearest to `q` that has 53 bits and an
exponent from -1074 on, where ties go to the even mantissa. It is odd (`nearest_neg`), it keeps the
order (`nearest_mono`), it changes no representable number (`nearest_of_representable`), and so it
never crosses one.
-/

namespace PlanarNewton.Binary64

/-- The integer nearest to a rational, the even one where two are equally near. -/
def roundEven (q : ℚ) : ℤ :=
  if q - ⌊q⌋ < 1 / 2 then ⌊q⌋
  else if q - ⌊q⌋ = 1 / 2 then ⌊q⌋ + ⌊q⌋ % 2
  else ⌊q⌋ + 1

/-- The integer is less than a half away, or exactly a half and even. -/
def IsNearestInt (q : ℚ) (n : ℤ) : Prop :=
  |q - n| < 1 / 2 ∨ |q - n| = 1 / 2 ∧ n % 2 = 0

/-- Every rational has a nearest integer, and `roundEven` finds it. -/
lemma isNearestInt_roundEven (q : ℚ) : IsNearestInt q (roundEven q) := by
  have h0 := Int.floor_le q
  have h1 := Int.lt_floor_add_one q
  unfold roundEven
  split_ifs with hlt heq
  · left
    rw [abs_of_nonneg (by linarith)]
    exact hlt
  · right
    refine ⟨?_, by omega⟩
    rcases Int.emod_two_eq_zero_or_one ⌊q⌋ with h | h
    · rw [h, add_zero, heq, abs_of_nonneg (by norm_num)]
    · rw [h, abs_of_nonpos] <;> push_cast <;> linarith
  · left
    have hgt : 1 / 2 < q - ⌊q⌋ := lt_of_le_of_ne (not_lt.mp hlt) (Ne.symm heq)
    rw [abs_of_nonpos] <;> push_cast <;> linarith

/-- The nearest integer is half a unit away at most. -/
lemma IsNearestInt.abs_sub_le {q : ℚ} {n : ℤ} (h : IsNearestInt q n) : |q - n| ≤ 1 / 2 :=
  h.elim le_of_lt fun h => h.1.le

/-- Larger numbers have larger nearest integers. -/
lemma IsNearestInt.mono {p q : ℚ} {m n : ℤ} (hp : IsNearestInt p m) (hq : IsNearestInt q n)
    (h : p ≤ q) : m ≤ n := by
  by_contra! hlt
  have h1 := abs_le.mp hp.abs_sub_le
  have h2 := abs_le.mp hq.abs_sub_le
  have h3 : (n : ℚ) + 1 ≤ m := by exact_mod_cast hlt
  -- Both are a half away, so both integers would be even.
  have hpm : |p - m| = 1 / 2 := by
    rw [abs_of_nonpos] <;> linarith
  have hqn : |q - n| = 1 / 2 := by
    rw [abs_of_nonneg] <;> linarith
  have hm : m % 2 = 0 := hp.elim (fun h => absurd hpm h.ne) And.right
  have hn : n % 2 = 0 := hq.elim (fun h => absurd hqn h.ne) And.right
  have h4 : (m : ℚ) = n + 1 := by linarith
  have h5 : m = n + 1 := by exact_mod_cast h4
  omega

/-- The nearest integer of the opposite is the opposite. -/
lemma IsNearestInt.neg {q : ℚ} {n : ℤ} (h : IsNearestInt q n) : IsNearestInt (-q) (-n) := by
  have habs : |-q - ((-n : ℤ) : ℚ)| = |q - n| := by
    rw [← abs_neg]
    push_cast
    ring_nf
  rw [IsNearestInt, habs]
  exact h.imp_right fun h => ⟨h.1, by omega⟩

/-- There is only one nearest integer, since ties go to the even one. -/
lemma IsNearestInt.eq_roundEven {q : ℚ} {n : ℤ} (h : IsNearestInt q n) : roundEven q = n :=
  le_antisymm ((isNearestInt_roundEven q).mono h le_rfl) (h.mono (isNearestInt_roundEven q) le_rfl)

/-- An integer is its own nearest one. -/
@[simp]
lemma roundEven_intCast (n : ℤ) : roundEven n = n :=
  IsNearestInt.eq_roundEven (.inl (by simp))

/-- Larger numbers round to larger integers. -/
lemma roundEven_mono {p q : ℚ} (h : p ≤ q) : roundEven p ≤ roundEven q :=
  (isNearestInt_roundEven p).mono (isNearestInt_roundEven q) h

/-- Rounding to integers is symmetric about zero. -/
lemma roundEven_neg (q : ℚ) : roundEven (-q) = -roundEven q :=
  (isNearestInt_roundEven q).neg.eq_roundEven

/-- The exponent of the last bit of the doubles around `q`. -/
def lastPlace (q : ℚ) : ℤ :=
  max (Int.log 2 |q| - 52) (-1074)

/--
The number nearest to `q` of those with 53 bits and an exponent from -1074 on, the even one where two
are equally near. No exponent is too large.
-/
def nearest (q : ℚ) : ℚ :=
  roundEven (q / 2 ^ lastPlace q) * 2 ^ lastPlace q

/-- Opposite numbers are rounded at the same place. -/
@[simp]
lemma lastPlace_neg (q : ℚ) : lastPlace (-q) = lastPlace q := by
  rw [lastPlace, abs_neg, lastPlace]

/-- Opposite numbers are rounded to opposite doubles. -/
@[simp]
lemma nearest_neg (q : ℚ) : nearest (-q) = -nearest q := by
  rw [nearest, lastPlace_neg, neg_div, roundEven_neg, nearest]
  push_cast
  ring

/-- Zero is rounded to zero. -/
@[simp]
lemma nearest_zero : nearest 0 = 0 := by
  have h : roundEven 0 = 0 := by exact_mod_cast roundEven_intCast 0
  rw [nearest, zero_div, h, Int.cast_zero, zero_mul]

/-- No number is rounded below the place of the subnormal doubles. -/
lemma neg_1074_le_lastPlace (q : ℚ) : -1074 ≤ lastPlace q :=
  le_max_right _ _

/-- A number has at most 53 bits above its last place. -/
lemma abs_lt_two_zpow (q : ℚ) : |q| < 2 ^ (lastPlace q + 53) := by
  have h1 : |q| < 2 ^ (Int.log 2 |q| + 1) := Int.lt_zpow_succ_log_self (by norm_num) _
  have h2 : Int.log 2 |q| - 52 ≤ lastPlace q := le_max_left _ _
  exact h1.trans_le (zpow_le_zpow_right₀ (by norm_num) (by omega))

/-- A number rounded above that place has all 53 bits. -/
lemma two_zpow_le_abs {q : ℚ} (hq : q ≠ 0) (h : -1074 < lastPlace q) :
    2 ^ (lastPlace q + 52) ≤ |q| := by
  have h1 : 2 ^ Int.log 2 |q| ≤ |q| := Int.zpow_log_le_self (by norm_num) (abs_pos.mpr hq)
  have h2 : lastPlace q = Int.log 2 |q| - 52 := by
    unfold lastPlace at h ⊢
    omega
  rwa [h2, sub_add_cancel]

/-- The last place is the least from -1074 on for which 53 bits reach the number. -/
lemma lastPlace_le {q : ℚ} {t : ℤ} (hq : q ≠ 0) (ht : -1074 ≤ t) (h : |q| < 2 ^ (t + 53)) :
    lastPlace q ≤ t := by
  by_contra! hlt
  have h1 := two_zpow_le_abs hq (by omega)
  have h2 : (2 : ℚ) ^ (t + 53) ≤ 2 ^ (lastPlace q + 52) :=
    zpow_le_zpow_right₀ (by norm_num) (by omega)
  linarith

/-- The place at which a number is rounded, from its size. -/
lemma lastPlace_eq {q : ℚ} {t : ℤ} (hq : q ≠ 0) (ht : -1074 ≤ t) (h : |q| < 2 ^ (t + 53))
    (hl : t = -1074 ∨ 2 ^ (t + 52) ≤ |q|) : lastPlace q = t := by
  apply le_antisymm (lastPlace_le hq ht h)
  rcases hl with rfl | hl
  · exact neg_1074_le_lastPlace q
  · by_contra! hlt
    have h1 := abs_lt_two_zpow q
    have h2 : (2 : ℚ) ^ (lastPlace q + 53) ≤ 2 ^ (t + 52) :=
      zpow_le_zpow_right₀ (by norm_num) (by omega)
    linarith

/-- Larger numbers are rounded at higher places. -/
lemma lastPlace_mono {p q : ℚ} (hp : p ≠ 0) (h : |p| ≤ |q|) : lastPlace p ≤ lastPlace q :=
  lastPlace_le hp (neg_1074_le_lastPlace q) (h.trans_lt (abs_lt_two_zpow q))

/-- Rounding does not go beyond a multiple of the last place, from below. -/
lemma nearest_le_mul {q : ℚ} {n : ℤ} (h : q ≤ n * 2 ^ lastPlace q) :
    nearest q ≤ n * 2 ^ lastPlace q := by
  have hpos : (0 : ℚ) < 2 ^ lastPlace q := by positivity
  have h1 : roundEven (q / 2 ^ lastPlace q) ≤ n := by
    rw [← roundEven_intCast n]
    exact roundEven_mono ((div_le_iff₀ hpos).mpr h)
  have h2 : (roundEven (q / 2 ^ lastPlace q) : ℚ) ≤ n := by exact_mod_cast h1
  exact mul_le_mul_of_nonneg_right h2 hpos.le

/-- Rounding does not go beyond a multiple of the last place, from above. -/
lemma mul_le_nearest {q : ℚ} {n : ℤ} (h : n * 2 ^ lastPlace q ≤ q) :
    n * 2 ^ lastPlace q ≤ nearest q := by
  have h1 : -q ≤ ((-n : ℤ) : ℚ) * 2 ^ lastPlace (-q) := by
    rw [lastPlace_neg]
    push_cast
    linarith
  have h2 := nearest_le_mul h1
  rw [nearest_neg, lastPlace_neg] at h2
  push_cast at h2
  linarith

/-- A number that is not negative is not rounded to a negative one. -/
lemma nearest_nonneg {q : ℚ} (h : 0 ≤ q) : 0 ≤ nearest q := by
  have h1 : ((0 : ℤ) : ℚ) * 2 ^ lastPlace q ≤ q := by simpa using h
  simpa using mul_le_nearest h1

/-- A number that is not positive is not rounded to a positive one. -/
lemma nearest_nonpos {q : ℚ} (h : q ≤ 0) : nearest q ≤ 0 := by
  have h1 := nearest_nonneg (neg_nonneg.mpr h)
  rw [nearest_neg] at h1
  linarith

/-- Powers of two with a natural part of the exponent split off as an integer. -/
lemma two_zpow_add (t : ℤ) (n : ℕ) : (2 : ℚ) ^ (t + n) = ((2 ^ n : ℤ) : ℚ) * 2 ^ t := by
  rw [zpow_add₀ (by norm_num), zpow_natCast, mul_comm]
  push_cast
  rfl

/-- Rounding up reaches at most one bit more. -/
lemma nearest_le_two_zpow (q : ℚ) : nearest q ≤ 2 ^ (lastPlace q + 53) := by
  have h := (le_abs_self q).trans (abs_lt_two_zpow q).le
  have h1 : (2 : ℚ) ^ (lastPlace q + 53) = _ := two_zpow_add (lastPlace q) 53
  rw [h1] at h ⊢
  exact nearest_le_mul h

/-- Rounding keeps the leading bit. -/
lemma two_zpow_le_nearest {q : ℚ} (hq : 0 < q) (h : -1074 < lastPlace q) :
    2 ^ (lastPlace q + 52) ≤ nearest q := by
  have h1 := two_zpow_le_abs hq.ne' h
  have h2 : (2 : ℚ) ^ (lastPlace q + 52) = _ := two_zpow_add (lastPlace q) 52
  rw [abs_of_pos hq, h2] at h1
  rw [h2]
  exact mul_le_nearest h1

/-- Rounding keeps the order of numbers that are not negative. -/
lemma nearest_mono_of_nonneg {p q : ℚ} (hp : 0 ≤ p) (h : p ≤ q) : nearest p ≤ nearest q := by
  rcases hp.eq_or_lt with rfl | hpos
  · rw [nearest_zero]
    exact nearest_nonneg h
  · have hq : 0 < q := hpos.trans_le h
    have hl : lastPlace p ≤ lastPlace q :=
      lastPlace_mono hpos.ne' (by rwa [abs_of_pos hpos, abs_of_pos hq])
    rcases hl.eq_or_lt with heq | hlt
    · unfold nearest
      rw [heq]
      have h1 : p / 2 ^ lastPlace q ≤ q / 2 ^ lastPlace q := by gcongr
      have h2 : (roundEven (p / 2 ^ lastPlace q) : ℚ) ≤ roundEven (q / 2 ^ lastPlace q) := by
        exact_mod_cast roundEven_mono h1
      gcongr
    · -- A power of two lies between the two numbers, and between their roundings.
      have hmin := neg_1074_le_lastPlace p
      calc nearest p ≤ 2 ^ (lastPlace p + 53) := nearest_le_two_zpow p
        _ ≤ 2 ^ (lastPlace q + 52) := zpow_le_zpow_right₀ (by norm_num) (by omega)
        _ ≤ nearest q := two_zpow_le_nearest hq (by omega)

/-- Rounding keeps the order. -/
lemma nearest_mono {p q : ℚ} (h : p ≤ q) : nearest p ≤ nearest q := by
  rcases le_total 0 p with hp | hp
  · exact nearest_mono_of_nonneg hp h
  · rcases le_total 0 q with hq | hq
    · exact (nearest_nonpos hp).trans (nearest_nonneg hq)
    · have h1 := nearest_mono_of_nonneg (neg_nonneg.mpr hq) (neg_le_neg h)
      rw [nearest_neg, nearest_neg] at h1
      linarith

/-- A number that has 53 bits and an exponent from -1074 on. -/
def Representable (q : ℚ) : Prop :=
  ∃ m e : ℤ, |m| < 2 ^ 53 ∧ -1074 ≤ e ∧ q = m * 2 ^ e

/-- Zero is a double. -/
lemma representable_zero : Representable 0 :=
  ⟨0, 0, by norm_num, by norm_num, by norm_num⟩

/-- A mantissa of `2 ^ 53` still is representable, with a larger exponent. -/
lemma representable_of_le {m e : ℤ} (hm : |m| ≤ 2 ^ 53) (he : -1074 ≤ e) :
    Representable (m * 2 ^ e) := by
  rcases hm.lt_or_eq with hlt | heq
  · exact ⟨m, e, hlt, he, rfl⟩
  · -- The mantissa is a power of two and loses a factor to the exponent.
    have hm2 : m = 2 ^ 53 ∨ m = -2 ^ 53 := (abs_eq (by norm_num)).mp heq
    obtain ⟨k, rfl⟩ : ∃ k, m = k * 2 := ⟨m / 2, by omega⟩
    refine ⟨k, e + 1, by rw [abs_lt]; omega, by omega, ?_⟩
    rw [zpow_add₀ (by norm_num)]
    push_cast
    ring

/-- A whole multiple of the last place is its own rounding. -/
lemma nearest_of_eq_mul {q : ℚ} {n : ℤ} (h : q = n * 2 ^ lastPlace q) : nearest q = q := by
  have h1 : q / 2 ^ lastPlace q = n := by
    rw [div_eq_iff (by positivity)]
    exact h
  rw [nearest, h1, roundEven_intCast, ← h]

/-- The absolute value of an integer times a power of two is taken of the integer. -/
lemma abs_mul_two_zpow (m e : ℤ) : |(m : ℚ) * 2 ^ e| = (|m| : ℤ) * 2 ^ e := by
  rw [abs_mul, abs_of_pos (by positivity : (0 : ℚ) < 2 ^ e), Int.cast_abs]

/-- The size of an integer of 53 bits times a power of two. -/
lemma mul_two_zpow_lt {m e : ℤ} (hm : |m| < 2 ^ 53) : |(m : ℚ) * 2 ^ e| < 2 ^ (e + 53) := by
  have h : (2 : ℚ) ^ (e + 53) = _ := two_zpow_add e 53
  rw [abs_mul_two_zpow, h]
  gcongr

/-- Rounding changes no number that is representable. -/
lemma nearest_of_representable {q : ℚ} (h : Representable q) : nearest q = q := by
  obtain ⟨m, e, hm, he, rfl⟩ := h
  rcases eq_or_ne m 0 with rfl | h0
  · simp
  have hl := lastPlace_le (by positivity) he (mul_two_zpow_lt hm)
  obtain ⟨k, hk⟩ := Int.eq_ofNat_of_zero_le (sub_nonneg.mpr hl)
  apply nearest_of_eq_mul (n := m * 2 ^ k)
  generalize lastPlace (m * 2 ^ e) = t at hk
  obtain rfl : e = t + k := by omega
  rw [two_zpow_add]
  push_cast
  ring

/-- What a number is rounded to is a double. -/
lemma representable_nearest (q : ℚ) : Representable (nearest q) := by
  apply representable_of_le _ (neg_1074_le_lastPlace q)
  have h : |q / 2 ^ lastPlace q| ≤ ((2 ^ 53 : ℤ) : ℚ) := by
    rw [abs_div, abs_of_pos (by positivity : (0 : ℚ) < 2 ^ lastPlace q), div_le_iff₀ (by positivity),
      ← two_zpow_add _ 53]
    exact (abs_lt_two_zpow q).le
  obtain ⟨h1, h2⟩ := abs_le.mp h
  rw [abs_le]
  constructor
  · have := roundEven_mono h1
    rwa [roundEven_neg, roundEven_intCast] at this
  · have := roundEven_mono h2
    rwa [roundEven_intCast] at this

/-- Rounding up does not cross a representable number. -/
lemma nearest_le_of_le {q r : ℚ} (hr : Representable r) (h : q ≤ r) : nearest q ≤ r :=
  nearest_of_representable hr ▸ nearest_mono h

/-- Rounding down does not cross a representable number. -/
lemma le_nearest_of_le {q r : ℚ} (hr : Representable r) (h : r ≤ q) : r ≤ nearest q :=
  nearest_of_representable hr ▸ nearest_mono h

/-- Rounding moves a number by at most half a last place. -/
lemma abs_sub_nearest_le (q : ℚ) : |q - nearest q| ≤ 2 ^ lastPlace q / 2 := by
  have hpos : (0 : ℚ) < 2 ^ lastPlace q := by positivity
  have h := (isNearestInt_roundEven (q / 2 ^ lastPlace q)).abs_sub_le
  have h1 : q - nearest q =
      (q / 2 ^ lastPlace q - roundEven (q / 2 ^ lastPlace q)) * 2 ^ lastPlace q := by
    rw [nearest]
    field_simp
  rw [h1, abs_mul, abs_of_pos hpos]
  linarith [mul_le_mul_of_nonneg_right h hpos.le]

/-- No multiple of the last place is nearer. -/
lemma abs_sub_nearest_le_of_mul (q : ℚ) (n : ℤ) : |q - nearest q| ≤ |q - n * 2 ^ lastPlace q| := by
  have hpos : (0 : ℚ) < 2 ^ lastPlace q := by positivity
  rcases eq_or_ne (roundEven (q / 2 ^ lastPlace q)) n with rfl | hne
  · rfl
  · -- Another integer is at least one half away.
    have h := (isNearestInt_roundEven (q / 2 ^ lastPlace q)).abs_sub_le
    have hone : (1 : ℚ) ≤ |(roundEven (q / 2 ^ lastPlace q) : ℚ) - n| := by
      exact_mod_cast Int.one_le_abs (sub_ne_zero.mpr hne)
    have htriangle := abs_sub_le (roundEven (q / 2 ^ lastPlace q) : ℚ) (q / 2 ^ lastPlace q) n
    rw [abs_sub_comm (_ : ℚ) (q / 2 ^ lastPlace q)] at htriangle
    have hq : q - n * 2 ^ lastPlace q = (q / 2 ^ lastPlace q - n) * 2 ^ lastPlace q := by
      field_simp
    rw [hq, abs_mul, abs_of_pos hpos]
    have hhalf : (1 : ℚ) / 2 ≤ |q / 2 ^ lastPlace q - n| := by linarith
    calc |q - nearest q| ≤ 2 ^ lastPlace q / 2 := abs_sub_nearest_le q
      _ = 1 / 2 * 2 ^ lastPlace q := by ring
      _ ≤ |q / 2 ^ lastPlace q - n| * 2 ^ lastPlace q := by gcongr

/-- No representable number is nearer. -/
theorem abs_sub_nearest_le_of_representable (q : ℚ) {r : ℚ} (hr : Representable r) :
    |q - nearest q| ≤ |q - r| := by
  obtain ⟨m, e, hm, he, rfl⟩ := hr
  rcases le_or_gt (lastPlace q) e with hle | hlt
  · obtain ⟨k, hk⟩ := Int.eq_ofNat_of_zero_le (sub_nonneg.mpr hle)
    obtain rfl : e = lastPlace q + k := by omega
    rw [two_zpow_add, ← mul_assoc, ← Int.cast_mul]
    exact abs_sub_nearest_le_of_mul q _
  · -- A number with a smaller last place is on the other side of a power of two.
    rcases eq_or_ne q 0 with rfl | h0
    · rw [nearest_zero, sub_zero, abs_zero]
      exact abs_nonneg _
    have hlow := two_zpow_le_abs h0 (he.trans_lt hlt)
    have hsmall : |(m : ℚ) * 2 ^ e| ≤ 2 ^ (lastPlace q + 52) :=
      (mul_two_zpow_lt hm).le.trans (zpow_le_zpow_right₀ (by norm_num) (by omega))
    have hpower : (2 : ℚ) ^ (lastPlace q + 52) = _ := two_zpow_add (lastPlace q) 52
    have hdist : |q| - 2 ^ (lastPlace q + 52) ≤ |q - m * 2 ^ e| :=
      (sub_le_sub_left hsmall _).trans (abs_sub_abs_le_abs_sub _ _)
    refine le_trans ?_ hdist
    rcases lt_or_gt_of_ne h0 with hneg | hpos
    · have h := abs_sub_nearest_le_of_mul q (-(2 ^ 52))
      rw [Int.cast_neg, neg_mul, ← hpower, sub_neg_eq_add] at h
      rw [abs_of_neg hneg] at hlow ⊢
      rw [abs_of_nonpos (by linarith : q + 2 ^ (lastPlace q + 52) ≤ 0)] at h
      linarith
    · have h := abs_sub_nearest_le_of_mul q (2 ^ 52)
      rw [← hpower] at h
      rw [abs_of_pos hpos] at hlow ⊢
      rwa [abs_of_nonneg (sub_nonneg.mpr hlow)] at h

/-- A last place less than a rounded number still is representable. -/
lemma representable_nearest_sub {q : ℚ} (h : 2 ^ (lastPlace q + 52) ≤ nearest q) :
    Representable (nearest q - 2 ^ lastPlace q) := by
  have hup := nearest_le_two_zpow q
  have h1 : (2 : ℚ) ^ (lastPlace q + 53) = _ := two_zpow_add (lastPlace q) 53
  have h2 : (2 : ℚ) ^ (lastPlace q + 52) = _ := two_zpow_add (lastPlace q) 52
  have hv : nearest q - 2 ^ lastPlace q =
      ((roundEven (q / 2 ^ lastPlace q) - 1 : ℤ) : ℚ) * 2 ^ lastPlace q := by
    rw [nearest]
    push_cast
    ring
  rw [hv]
  rw [nearest, h1, mul_le_mul_iff_left₀ (by positivity)] at hup
  rw [nearest, h2, mul_le_mul_iff_left₀ (by positivity)] at h
  have hup' : roundEven (q / 2 ^ lastPlace q) ≤ 2 ^ 53 := by exact_mod_cast hup
  have hlow' : 2 ^ 52 ≤ roundEven (q / 2 ^ lastPlace q) := by exact_mod_cast h
  exact representable_of_le (by rw [abs_le]; constructor <;> omega) (neg_1074_le_lastPlace q)

/-- Every double is a multiple of the least one. -/
lemma exists_mul_two_zpow {q : ℚ} (h : Representable q) : ∃ n : ℤ, q = n * 2 ^ (-1074 : ℤ) := by
  obtain ⟨m, e, -, he, rfl⟩ := h
  obtain ⟨k, hk⟩ := Int.eq_ofNat_of_zero_le (by omega : 0 ≤ e + 1074)
  obtain rfl : e = -1074 + k := by omega
  refine ⟨m * 2 ^ k, ?_⟩
  rw [two_zpow_add, Int.cast_mul, mul_assoc]

end PlanarNewton.Binary64
