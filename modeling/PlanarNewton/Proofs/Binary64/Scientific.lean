import PlanarNewton.Proofs.Binary64.Bounds
import PlanarNewton.Proofs.Binary64.Integer

/-!
# Decimals rounded to doubles

The double `Float.ofScientific n s e` is the rounding of the exact decimal, whatever its size
(`value_ofScientific`). Where the significand has 53 bits and the exponent is small, both factors are
doubles and one product or quotient rounds. Elsewhere unpacked numbers with all their bits are multiplied
or divided, unless the exponent alone says that the result overflows or underflows.
-/

namespace PlanarNewton.Binary64
open Value Float.Model Float.Model.UnpackedFloat

/-- The powers of ten up to the twenty-second are doubles. -/
lemma representable_ten_pow {e : ℕ} (h : e ≤ 22) : Representable (10 ^ e) := by
  refine ⟨5 ^ e, e, ?_, by omega, ?_⟩
  · have h22 : (5 : ℤ) ^ e ≤ 5 ^ 22 := pow_le_pow_right₀ (by norm_num) h
    rw [abs_of_pos (by positivity)]
    omega
  · push_cast
    rw [zpow_natCast, ← mul_pow]
    norm_num

/-- The powers of ten up to the twenty-second do not overflow. -/
lemma ten_pow_lt_limit {e : ℕ} (h : e ≤ 22) : |(10 : ℚ) ^ e| < limit := by
  rw [abs_of_pos (by positivity)]
  calc (10 : ℚ) ^ e ≤ 10 ^ 22 := pow_le_pow_right₀ (by norm_num) h
    _ < 2 ^ (100 : ℤ) := by norm_num
    _ ≤ limit := zpow_le_zpow_right₀ (by norm_num) (by norm_num)

/-- The powers of ten in the table are rounded from the exact ones. -/
lemma exactlyRepresentablePowersOfTen_eq {e : ℕ} (h : e < Float.exactlyRepresentablePowersOfTen.size) :
    Float.exactlyRepresentablePowersOfTen[e] =
      .ofModel (.pack (UnpackedFloat.round Format.binary64 .positive (10 ^ e) 0)) := by
  have h23 : e < 23 := h
  interval_cases e <;> rfl

/-- The powers of ten of the table have the values that they stand for. -/
lemma value_powerOfTen {e : ℕ} (h : e < Float.exactlyRepresentablePowersOfTen.size) :
    value Float.exactlyRepresentablePowersOfTen[e] = .finite (10 ^ e) := by
  have h22 : e ≤ 22 := Nat.le_of_lt_succ h
  have hround := isRounding_round .positive 0 (by positivity : 0 < 10 ^ e)
  rw [exactlyRepresentablePowersOfTen_eq h, value_pack_of_isRounding (by positivity) hround,
    signed_positive, zpow_zero, mul_one]
  push_cast
  exact round_of_representable (representable_ten_pow h22) (ten_pow_lt_limit h22)

/-- What is at most half the least double is rounded to zero. -/
lemma round_underflow {q : ℚ} (h0 : 0 ≤ q) (h : q ≤ 2 ^ (-1075 : ℤ)) : Value.round q = .finite 0 := by
  rcases h0.eq_or_lt with rfl | hpos
  · exact round_zero
  have hlast : lastPlace q = -1074 := by
    refine lastPlace_eq hpos.ne' le_rfl ?_ (.inl rfl)
    rw [abs_of_pos hpos]
    exact h.trans_lt (zpow_lt_zpow_right₀ (by norm_num) (by norm_num))
  have hhalf : (2 : ℚ) ^ (-1075 : ℤ) = 1 / 2 * 2 ^ (-1074 : ℤ) := by
    rw [(by norm_num : (-1075 : ℤ) = -1 + -1074), zpow_add₀ (by norm_num)]
    norm_num
  have hint : IsNearestInt (q / 2 ^ (-1074 : ℤ)) 0 := by
    have habs : |q / 2 ^ (-1074 : ℤ) - (0 : ℤ)| = q / 2 ^ (-1074 : ℤ) := by
      rw [Int.cast_zero, sub_zero, abs_of_pos (by positivity)]
    have hle : q / 2 ^ (-1074 : ℤ) ≤ 1 / 2 := by
      rw [div_le_iff₀ (by positivity), ← hhalf]
      exact h
    rw [IsNearestInt, habs]
    exact hle.lt_or_eq.imp_right fun heq => ⟨heq, rfl⟩
  have hzero : nearest q = 0 := by
    rw [nearest, hlast, hint.eq_roundEven, Int.cast_zero, zero_mul]
  rw [Value.round, hzero, if_pos abs_zero_lt_limit]

/-- The first power of two beyond the doubles has few digits. -/
lemma representable_limit : Representable limit :=
  ⟨1, 1024, by norm_num, by norm_num, by rw [limit, Int.cast_one, one_mul]⟩

/-- What reaches the limit of the doubles is rounded to infinity. -/
lemma round_of_limit_le {q : ℚ} (h : limit ≤ q) : Value.round q = .infinite .positive :=
  round_overflow (le_nearest_of_le representable_limit h)

/-- For negative exponents, powers of ten are below powers of two. -/
lemma ten_zpow_le_two_zpow {e : ℤ} (h : e ≤ 0) : (10 : ℚ) ^ e ≤ 2 ^ e := by
  obtain ⟨k, rfl⟩ : ∃ k : ℕ, e = -k := ⟨(-e).toNat, by omega⟩
  rw [zpow_neg, zpow_neg, zpow_natCast, zpow_natCast]
  gcongr
  norm_num

/-- An exponent that is too small for the significand, however many bits that has. -/
lemma mul_ten_zpow_le {n : ℕ} {e : ℤ} (h : e < -(2048 + (n.log2 : ℤ))) :
    (n : ℚ) * 10 ^ e ≤ 2 ^ (-1075 : ℤ) := by
  have hn : (n : ℚ) ≤ 2 ^ ((n.log2 : ℤ) + 1) := by
    exact_mod_cast (Nat.lt_log2_self (n := n)).le
  calc (n : ℚ) * 10 ^ e ≤ 2 ^ ((n.log2 : ℤ) + 1) * 2 ^ e := by
        gcongr
        exact ten_zpow_le_two_zpow (by omega)
    _ = 2 ^ ((n.log2 : ℤ) + 1 + e) := (zpow_add₀ (by norm_num) _ _).symm
    _ ≤ 2 ^ (-1075 : ℤ) := zpow_le_zpow_right₀ (by norm_num) (by omega)

/-- A number with a large exponent overflows. -/
lemma limit_le_mul_ten_zpow {n : ℕ} {e : ℤ} (hn : 0 < n) (h : 2048 < e) : limit ≤ n * 10 ^ e := by
  have h1 : (1 : ℚ) ≤ n := by exact_mod_cast hn
  obtain ⟨k, rfl⟩ : ∃ k : ℕ, e = k := ⟨e.toNat, by omega⟩
  calc limit ≤ 2 ^ (k : ℤ) := zpow_le_zpow_right₀ (by norm_num) (by omega)
    _ ≤ 10 ^ (k : ℤ) := by
      rw [zpow_natCast, zpow_natCast]
      gcongr
      norm_num
    _ ≤ n * 10 ^ (k : ℤ) := le_mul_of_one_le_left (by positivity) h1

/-- Shifted by enough bits, a whole number can be multiplied by another and rounded. -/
lemma isRounding_mul_natCast {n b p : ℕ} (hb : 52 ≤ b) (hn : 0 < n <<< b) (hp : 0 < p) :
    IsRounding .positive (n * p) (UnpackedFloat.mul Format.binary64
      (.finite .positive (n <<< b) (-b) hn) (.finite .positive p 0 hp)) := by
  have hshift : n <<< b = n * 2 ^ b := Nat.shiftLeft_eq n b
  have hbits : 2 ^ 52 ≤ n <<< b * p :=
    calc 2 ^ 52 ≤ 2 ^ b := Nat.pow_le_pow_right (by norm_num) hb
      _ ≤ n <<< b := by
        rw [hshift] at hn ⊢
        exact Nat.le_mul_of_pos_left _ (Nat.pos_of_mul_pos_right hn)
      _ ≤ n <<< b * p := Nat.le_mul_of_pos_right _ hp
  have hlog := (Nat.le_log2 (by positivity)).mpr hbits
  have hq : ((n <<< b : ℕ) : ℚ) * 2 ^ (-b : ℤ) * (p * 2 ^ (0 : ℤ)) = n * p := by
    rw [hshift, zpow_neg, zpow_natCast, zpow_zero]
    push_cast
    field_simp
  rw [← hq]
  refine isRounding_mul .positive .positive hn hp ?_
  rw [targetExponent_eq]
  omega

/-- The division of two natural numbers rounds their quotient. -/
lemma isRounding_div_natCast {n p : ℕ} (hn : 0 < n) (hp : 0 < p) :
    IsRounding .positive (n / p) (UnpackedFloat.div Format.binary64
      (.finite .positive n 0 hn) (.finite .positive p 0 hp)) := by
  have h := isRounding_div .positive .positive 0 0 hn hp
  rw [zpow_zero, mul_one, mul_one] at h
  exact h

/-- The decimal conversion of the kernel rounds the decimal. -/
lemma value_ofScientific_of_model (n : ℕ) (e : ℤ) :
    value (.ofModel (Float.Model.ofScientific n e)) = Value.round (n * 10 ^ e) := by
  have hlimit : (2 : ℤ) ^ Format.binary64.exponentBits = 2048 := rfl
  have hbits : 52 ≤ Format.binary64.mantissaBits := by decide
  rcases n.eq_zero_or_pos with rfl | hn
  · rw [Nat.cast_zero, zero_mul, round_zero]
    exact value_pack_zero _
  have hpos : (0 : ℚ) < n := by exact_mod_cast hn
  rw [Float.Model.ofScientific, UnpackedFloat.ofScientific, dif_neg hn.ne', hlimit]
  split_ifs with hlarge hsmall hnonneg
  · rw [round_of_limit_le (limit_le_mul_ten_zpow hn hlarge)]
    exact value_pack_infinity _
  · rw [round_underflow (by positivity) (mul_ten_zpow_le hsmall)]
    exact value_pack_zero _
  · generalize_proofs hshift hp
    have h := value_pack_of_isRounding (by positivity) (isRounding_mul_natCast hbits hshift hp)
    rw [h, signed_positive, Nat.cast_pow, Nat.cast_ofNat, ← zpow_natCast, Int.toNat_of_nonneg hnonneg]
  · generalize_proofs _ hp
    have h := value_pack_of_isRounding (by positivity) (isRounding_div_natCast hn hp)
    rw [h, signed_positive, Nat.cast_pow, Nat.cast_ofNat, ← zpow_natCast,
      Int.toNat_of_nonneg (by omega), zpow_neg, div_inv_eq_mul]

/-- Where both factors are doubles, one operation rounds. -/
lemma value_ofScientific_of_exact {n e : ℕ} (s : Bool) (h : n < 2 ^ 53 ∧ e ≤ 22) :
    value (Float.ofScientific n s e) = Value.round (if s then n / 10 ^ e else n * 10 ^ e) := by
  have hn : value n.toUInt64.toFloat = .finite n := by
    have hnat : n.toUInt64.toNat = n := Nat.mod_eq_of_lt (by omega)
    rw [value_toFloat, hnat, nearest_of_representable (representable_natCast h.1.le)]
  have hsize : e < Float.exactlyRepresentablePowersOfTen.size := Nat.lt_succ_of_le h.2
  have hp := value_powerOfTen hsize
  have h0 : (10 : ℚ) ^ e ≠ 0 := by positivity
  rw [Float.ofScientific, dif_pos h]
  cases s with
  | false =>
    show value (_ * _) = _
    rw [value_mul, hn, hp]
    rfl
  | true =>
    show value (_ / _) = _
    rw [value_div (by rw [hp]; exact fun h => h0 (Value.finite.inj h)), hn, hp]
    exact if_neg h0

/-- A decimal becomes the double that its exact value rounds to. -/
theorem value_ofScientific (n : ℕ) (s : Bool) (e : ℕ) :
    value (Float.ofScientific n s e) = Value.round (n * 10 ^ (if s then -e else e : ℤ)) := by
  by_cases h : n < 2 ^ 53 ∧ e ≤ 22
  · rw [value_ofScientific_of_exact s h]
    cases s with
    | false => exact congrArg (fun p : ℚ => Value.round (n * p)) (zpow_natCast 10 e).symm
    | true =>
      show Value.round (n / 10 ^ e) = Value.round (n * 10 ^ (-e : ℤ))
      rw [zpow_neg, zpow_natCast, div_eq_mul_inv]
  · rw [Float.ofScientific, dif_neg h, value_ofScientific_of_model]
    cases s with
    | false => rfl
    | true => exact congrArg (fun k : ℤ => Value.round (n * 10 ^ k)) Int.negOfNat_eq

end PlanarNewton.Binary64
