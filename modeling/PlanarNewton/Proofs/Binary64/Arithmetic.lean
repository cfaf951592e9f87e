import PlanarNewton.Proofs.Binary64.Value

/-!
# Arithmetic of doubles

Sums, differences, products and quotients of doubles have the sums, differences, products and quotients
of their values: `value_add`, `value_sub`, `value_mul` and, for a divisor that is not zero, `value_div`.
-/

namespace PlanarNewton.Binary64
open Float.Model Float.Model.UnpackedFloat

namespace Value

/-- An integer multiple of a power of two is packed as its value rounded. -/
lemma value_pack_normalize (m e : ℤ) :
    value (.ofModel (.pack (UnpackedFloat.normalize Format.binary64 m e .positive))) =
      round (m * 2 ^ e) := by
  have key (s : Sign) (n : ℕ) (hn : 0 < n) :
      value (.ofModel (.pack (UnpackedFloat.round Format.binary64 s n e))) =
        round ((s.apply n : ℤ) * 2 ^ e) := by
    rw [value_pack_of_isRounding (by positivity) (isRounding_round s e hn), signed_mul]
  unfold UnpackedFloat.normalize
  rcases lt_trichotomy m 0 with hm | rfl | hm
  · rw [Int.compare_eq_lt.mpr hm]
    have h : (-m).toNat = -m := Int.toNat_of_nonneg (by omega)
    simp only [key .negative _ (by omega : 0 < (-m).toNat), Sign.apply, h, neg_neg]
  · rw [Int.compare_eq_eq.mpr rfl, Int.cast_zero, zero_mul, round_zero]
    exact value_pack_zero _
  · rw [Int.compare_eq_gt.mpr hm]
    have h : m.toNat = m := Int.toNat_of_nonneg hm.le
    simp only [key .positive _ (by omega : 0 < m.toNat), Sign.apply, h]

/-- Two numbers are added at the smaller of their exponents. -/
lemma signed_decreaseExponent (s : Sign) (m : ℕ) {e t : ℤ} (ht : t ≤ e) :
    ((s.apply (decreaseExponent m e t).1 : ℤ) : ℚ) * 2 ^ t = signed s (m * 2 ^ e) := by
  have h : (decreaseExponent m e t).2 = t := by
    simp only [decreaseExponent]
    omega
  have hv := decreaseExponent_value m e t
  rw [← hv, h, signed_mul]

/-- The sum of two unpacked doubles is packed as the sum of their values. -/
lemma value_pack_add {u v : UnpackedFloat} (hu : IsDouble u) (hv : IsDouble v) :
    value (.ofModel (.pack (UnpackedFloat.add Format.binary64 u v))) =
      (ofUnpacked u).add (ofUnpacked v) := by
  cases u with
  | notANumber => exact value_pack_notANumber
  | infinity s =>
    cases v with
    | notANumber => cases s <;> exact value_pack_notANumber
    | infinity t => cases s <;> cases t <;> rfl
    | _ => cases s <;> exact value_pack_infinity _
  | zero s =>
    cases v with
    | notANumber => exact value_pack_notANumber
    | infinity t => exact value_pack_infinity t
    | zero t =>
      show _ = round (0 + 0)
      rw [add_zero, round_zero]
      cases s <;> cases t <;> exact value_pack_zero _
    | finite t n k hn =>
      show _ = round (0 + _)
      rw [zero_add, round_finite hv]
      exact value_pack_of_isDouble hv
  | finite s m e hm =>
    cases v with
    | notANumber => exact value_pack_notANumber
    | infinity t => exact value_pack_infinity t
    | zero t =>
      show _ = round (_ + 0)
      rw [add_zero, round_finite hu]
      exact value_pack_of_isDouble hu
    | finite t n k hn =>
      show _ = round (signed s (m * 2 ^ e) + signed t (n * 2 ^ k))
      rw [← signed_decreaseExponent s m (min_le_left e k),
        ← signed_decreaseExponent t n (min_le_right e k), ← add_mul, ← Int.cast_add,
        ← value_pack_normalize]
      rfl

/-- Unpacked numbers are subtracted by adding the opposite. -/
lemma sub_eq_add_neg (u v : UnpackedFloat) :
    UnpackedFloat.sub Format.binary64 u v = UnpackedFloat.add Format.binary64 u v.neg := by
  cases u <;> cases v <;> try rfl
  rename_i s m e hm t n k hn
  simp only [UnpackedFloat.sub, UnpackedFloat.add, UnpackedFloat.neg]
  congr 1
  cases t
  · exact sub_neg_eq_add _ _
  · rfl

/-- The exponents of two canonical numbers add up to one that their product can be rounded from. -/
lemma exponent_le_of_mul {s t : Sign} {m n : ℕ} {e k : ℤ} {hm : 0 < m} {hn : 0 < n}
    (hu : Canonical (.finite s m e hm)) (hv : Canonical (.finite t n k hn)) :
    e + k ≤ Format.binary64.targetExponent (totalExponent (m * n) (e + k)) := by
  rw [targetExponent_eq]
  by_cases h : 2 ^ 52 ≤ m * n
  · have := (Nat.le_log2 (by positivity)).mpr h
    omega
  · -- Both factors have the least exponent.
    have h1 : m ≤ m * n := Nat.le_mul_of_pos_right m hn
    have h2 : n ≤ m * n := Nat.le_mul_of_pos_left n hm
    have he := hu.2.2.resolve_left (by omega)
    have hk := hv.2.2.resolve_left (by omega)
    omega

/-- The product of two signed numbers has the product of their signs. -/
lemma signed_mul_signed (s t : Sign) (p q : ℚ) :
    signed s p * signed t q = signed (s * t) (p * q) := by
  cases s <;> cases t
  · exact neg_mul_neg p q
  · exact neg_mul p q
  · exact mul_neg p q
  · rfl

/-- A positive number with a sign is not zero. -/
lemma signed_ne_zero (s : Sign) {q : ℚ} (hq : 0 < q) : signed s q ≠ 0 := by
  cases s
  · exact (neg_lt_zero.mpr hq).ne
  · exact hq.ne'

/-- The product of two finite numbers is rounded, with the product of their signs. -/
lemma isRounding_mul (s t : Sign) {m n : ℕ} {e k : ℤ} (hm : 0 < m) (hn : 0 < n)
    (he : e + k ≤ Format.binary64.targetExponent (totalExponent (m * n) (e + k))) :
    IsRounding (s * t) (m * 2 ^ e * (n * 2 ^ k))
      (UnpackedFloat.mul Format.binary64 (.finite s m e hm) (.finite t n k hn)) := by
  have h := isRounding_roundWithAccuracy (s * t) (by positivity) (locates_ofMantissa_exact (m * n)) he
  have hq : ((m * n : ℕ) : ℚ) * 2 ^ (e + k) = m * 2 ^ e * (n * 2 ^ k) := by
    rw [zpow_add₀ (by norm_num)]
    push_cast
    ring
  rw [← hq]
  exact h

/-- The product of two unpacked doubles is packed as the product of their values. -/
lemma value_pack_mul {u v : UnpackedFloat} (hu : IsDouble u) (hv : IsDouble v) :
    value (.ofModel (.pack (UnpackedFloat.mul Format.binary64 u v))) =
      (ofUnpacked u).mul (ofUnpacked v) := by
  cases u with
  | notANumber => exact value_pack_notANumber
  | infinity s =>
    cases v with
    | notANumber => exact value_pack_notANumber
    | infinity t => exact value_pack_infinity _
    | zero t => exact value_pack_notANumber
    | finite t n k hn =>
      have hq : (0 : ℚ) < n * 2 ^ k := by positivity
      show _ = if signed t (n * 2 ^ k) = 0 then nan else _
      rw [if_neg (signed_ne_zero t hq), signOf_signed t hq]
      exact value_pack_infinity _
  | zero s =>
    cases v with
    | notANumber => exact value_pack_notANumber
    | infinity t => exact value_pack_notANumber
    | zero t =>
      show _ = round (0 * 0)
      rw [mul_zero, round_zero]
      exact value_pack_zero _
    | finite t n k hn =>
      show _ = round (0 * _)
      rw [zero_mul, round_zero]
      exact value_pack_zero _
  | finite s m e hm =>
    cases v with
    | notANumber => exact value_pack_notANumber
    | infinity t =>
      have hq : (0 : ℚ) < m * 2 ^ e := by positivity
      show _ = if signed s (m * 2 ^ e) = 0 then nan else _
      rw [if_neg (signed_ne_zero s hq), signOf_signed s hq]
      exact value_pack_infinity _
    | zero t =>
      show _ = round (_ * 0)
      rw [mul_zero, round_zero]
      exact value_pack_zero _
    | finite t n k hn =>
      show _ = round (signed s (m * 2 ^ e) * signed t (n * 2 ^ k))
      rw [signed_mul_signed]
      exact value_pack_of_isRounding (by positivity)
        (isRounding_mul s t hm hn (exponent_le_of_mul hu.1 hv.1))

/-- Quotient and remainder of a division locate the fraction. -/
lemma locates_accuracyOfFraction {n : ℕ} (m : ℕ) (hn : 0 < n) :
    Locates (ExtendedMantissa.ofMantissaAndAccuracy (m / n) (accuracyOfFraction (m % n) n))
      (m / n : ℚ) := by
  have hn' : (0 : ℚ) < n := by exact_mod_cast hn
  have hm : (m : ℚ) = n * (m / n : ℕ) + (m % n : ℕ) := by exact_mod_cast (Nat.div_add_mod m n).symm
  have hlt := Nat.mod_lt m hn
  have hx : (m / n : ℚ) = (m / n : ℕ) + (m % n : ℕ) / n := by
    rw [hm]
    field_simp
  rw [hx]
  -- Only the remainder matters: none, or on which side of the half it lies.
  generalize m / n = k
  generalize m % n = r at hlt
  unfold accuracyOfFraction
  by_cases h0 : r = 0
  · rw [if_pos h0, h0, Nat.cast_zero, zero_div, add_zero]
    exact locates_ofMantissa_exact k
  · rw [if_neg h0]
    have hpos : (0 : ℚ) < r / n := by
      have : 0 < r := Nat.pos_of_ne_zero h0
      positivity
    have hone : (r / n : ℚ) < 1 := by
      rw [div_lt_one hn']
      exact_mod_cast hlt
    rcases lt_trichotomy (2 * r) n with h | h | h
    · rw [Nat.compare_eq_lt.mpr h]
      have hhalf : (r / n : ℚ) < 1 / 2 := by
        rw [div_lt_div_iff₀ hn' (by norm_num)]
        exact_mod_cast (by omega : r * 2 < 1 * n)
      show (k : ℚ) < _ ∧ _ < (k : ℚ) + 1 / 2
      constructor <;> linarith
    · rw [Nat.compare_eq_eq.mpr h]
      have hhalf : (r / n : ℚ) = 1 / 2 := by
        rw [div_eq_div_iff hn'.ne' (by norm_num)]
        exact_mod_cast (by omega : r * 2 = 1 * n)
      show _ = (k : ℚ) + 1 / 2
      rw [hhalf]
    · rw [Nat.compare_eq_gt.mpr h]
      have hhalf : 1 / 2 < (r / n : ℚ) := by
        rw [div_lt_div_iff₀ (by norm_num) hn']
        exact_mod_cast (by omega : 1 * n < r * 2)
      show (k : ℚ) + 1 / 2 < _ ∧ _ < (k : ℚ) + 1
      constructor <;> linarith

/-- The exponent that a division is made at: not above that of the operands, and with bits enough
for rounding. -/
lemma divCore_exponent (m n : ℕ) (e k : ℤ) :
    (divCore Format.binary64 m e n k).2.1 =
      min (e - k) (max ((m.log2 : ℤ) + e - (n.log2 + k) - 53) (-1074)) := by
  show min (e - k) (max ((m.log2 : ℤ) + 1 + e - (n.log2 + 1 + k) - 53) (-1074)) = _
  congr 2
  omega

/-- The quotient that a division computes is that of integers, after a shift of the dividend. -/
lemma divCore_quotient (m n : ℕ) (e k : ℤ) :
    (divCore Format.binary64 m e n k).1 =
      (m <<< (e - k - (divCore Format.binary64 m e n k).2.1).toNat) / n := rfl

/-- The quotient has enough bits to be rounded. -/
lemma exponent_le_of_div {m n : ℕ} (e k : ℤ) (hm : 0 < m) (hn : 0 < n) :
    (divCore Format.binary64 m e n k).2.1 ≤ Format.binary64.targetExponent
      (totalExponent (divCore Format.binary64 m e n k).1 (divCore Format.binary64 m e n k).2.1) := by
  rw [targetExponent_eq, divCore_quotient]
  have ht := divCore_exponent m n e k
  generalize (divCore Format.binary64 m e n k).2.1 = t at ht ⊢
  by_cases hmin : t ≤ -1074
  · omega
  · -- The dividend was shifted until it has 53 bits more than the divisor.
    have hlog := log2_shiftLeft hm (e - k - t).toNat
    have hpos : m <<< (e - k - t).toNat ≠ 0 := by
      rw [Nat.shiftLeft_eq]
      positivity
    have hbits : 2 ^ 52 ≤ m <<< (e - k - t).toNat / n := by
      rw [Nat.le_div_iff_mul_le hn]
      calc 2 ^ 52 * n ≤ 2 ^ 52 * 2 ^ (n.log2 + 1) := by
            gcongr
            exact Nat.lt_log2_self.le
        _ = 2 ^ (n.log2 + 53) := by ring
        _ ≤ 2 ^ (m <<< (e - k - t).toNat).log2 := Nat.pow_le_pow_right (by norm_num) (by omega)
        _ ≤ m <<< (e - k - t).toNat := Nat.log2_self_le hpos
    have hlog52 := (Nat.le_log2 (by omega)).mpr hbits
    omega

/-- The shift of the dividend does not change the value of a quotient. -/
lemma quotient_value (m n : ℕ) {e k t : ℤ} (ht : t ≤ e - k) :
    ((m <<< (e - k - t).toNat : ℕ) : ℚ) / n * 2 ^ t = m * 2 ^ e / (n * 2 ^ k) := by
  obtain ⟨j, hj⟩ := Int.eq_ofNat_of_zero_le (sub_nonneg.mpr ht)
  obtain rfl : e = k + t + j := by omega
  have h : (k + t + j - k - t).toNat = j := by omega
  rw [h, Nat.shiftLeft_eq, zpow_add₀ (by norm_num), zpow_add₀ (by norm_num), zpow_natCast]
  push_cast
  field_simp

/-- The quotient of two signed numbers has the quotient of their signs. -/
lemma signed_div_signed (s t : Sign) (p q : ℚ) :
    signed s p / signed t q = signed (s / t) (p / q) := by
  cases s <;> cases t
  · exact neg_div_neg_eq p q
  · exact neg_div q p
  · exact div_neg p
  · rfl

/-- The quotient of two finite numbers is rounded, whatever their exponents. -/
lemma isRounding_div (s t : Sign) {m n : ℕ} (e k : ℤ) (hm : 0 < m) (hn : 0 < n) :
    IsRounding (s / t) (m * 2 ^ e / (n * 2 ^ k))
      (UnpackedFloat.div Format.binary64 (.finite s m e hm) (.finite t n k hn)) := by
  have hle := exponent_le_of_div e k hm hn
  have ht : (divCore Format.binary64 m e n k).2.1 ≤ e - k := by
    rw [divCore_exponent]
    exact min_le_left _ _
  rw [divCore_quotient] at hle
  have hpos : 0 < m <<< (e - k - (divCore Format.binary64 m e n k).2.1).toNat := by
    rw [Nat.shiftLeft_eq]
    positivity
  rw [← quotient_value m n ht]
  exact isRounding_roundWithAccuracy (s / t) (by positivity) (locates_accuracyOfFraction _ hn) hle

/-- The quotient of two unpacked doubles is packed as the quotient of their values, unless the
divisor is zero. -/
lemma value_pack_div {u v : UnpackedFloat} (hu : IsDouble u) (hv : IsDouble v)
    (h0 : ofUnpacked v ≠ finite 0) :
    value (.ofModel (.pack (UnpackedFloat.div Format.binary64 u v))) =
      (ofUnpacked u).div (ofUnpacked v) := by
  cases u with
  | notANumber => exact value_pack_notANumber
  | infinity s =>
    cases v with
    | notANumber => exact value_pack_notANumber
    | infinity t => exact value_pack_notANumber
    | zero t => exact absurd rfl h0
    | finite t n k hn =>
      have hq : (0 : ℚ) < n * 2 ^ k := by positivity
      show _ = if signed t (n * 2 ^ k) = 0 then nan else _
      rw [if_neg (signed_ne_zero t hq), signOf_signed t hq]
      exact value_pack_infinity _
  | zero s =>
    cases v with
    | notANumber => exact value_pack_notANumber
    | infinity t => exact value_pack_zero _
    | zero t => exact absurd rfl h0
    | finite t n k hn =>
      have hq : (0 : ℚ) < n * 2 ^ k := by positivity
      show _ = if signed t (n * 2 ^ k) = 0 then nan else round (0 / _)
      rw [if_neg (signed_ne_zero t hq), zero_div, round_zero]
      exact value_pack_zero _
  | finite s m e hm =>
    cases v with
    | notANumber => exact value_pack_notANumber
    | infinity t => exact value_pack_zero _
    | zero t => exact absurd rfl h0
    | finite t n k hn =>
      have hq : (0 : ℚ) < n * 2 ^ k := by positivity
      show _ = if signed t (n * 2 ^ k) = 0 then nan else
        round (signed s (m * 2 ^ e) / signed t (n * 2 ^ k))
      rw [if_neg (signed_ne_zero t hq), signed_div_signed]
      exact value_pack_of_isRounding (by positivity) (isRounding_div s t e k hm hn)

end Value

open Value

/-- The value of a sum is that of the values. -/
lemma value_add (x y : Float) : value (x + y) = (value x).add (value y) :=
  value_pack_add (isDouble_unpack x) (isDouble_unpack y)

/-- The value of a product is that of the values. -/
lemma value_mul (x y : Float) : value (x * y) = (value x).mul (value y) :=
  value_pack_mul (isDouble_unpack x) (isDouble_unpack y)

/-- The value of a quotient is that of the values, unless the divisor is zero. -/
lemma value_div {x y : Float} (h : value y ≠ .finite 0) : value (x / y) = (value x).div (value y) :=
  value_pack_div (isDouble_unpack x) (isDouble_unpack y) h

/-- Doubles are subtracted by adding the opposite. -/
lemma float_sub_eq (x y : Float) : x - y = x + -y := by
  show Float.ofModel (.pack (UnpackedFloat.sub _ _ _)) = .ofModel (.pack (UnpackedFloat.add _ _ _))
  rw [sub_eq_add_neg, unpack_neg]

/-- The value of a difference is that of the values. -/
lemma value_sub (x y : Float) : value (x - y) = (value x).add (value y).neg := by
  rw [float_sub_eq, value_add, value_neg]

end PlanarNewton.Binary64
