import PlanarNewton.Binary64.Basic
import PlanarNewton.Proofs.Binary64.Increment

/-!
# Whole doubles

The conversions between doubles and integers. A 64-bit number becomes the double nearest to it
(`value_toFloat`), a double is truncated to 64 bits (`toNat_toUInt64`), and `floor` is the floor of the
value (`value_floor`) without a rounding: a double with a fraction has less than 53 bits before the
point, and all others are whole.
-/

namespace PlanarNewton.Binary64
open Value Float.Model Float.Model.UnpackedFloat

/-- The value of zero. -/
lemma value_zero : value 0.0 = .finite 0 :=
  value_eq_zero.mpr (.inl rfl)

/-- Natural numbers of 53 bits at most are doubles. -/
lemma representable_natCast {n : ℕ} (h : n ≤ 2 ^ 53) : Representable n := by
  have h1 := representable_intCast (n := n) (by rw [Nat.abs_cast]; exact_mod_cast h)
  rwa [Int.cast_natCast] at h1

/-- A 64-bit integer is converted by rounding it. -/
lemma value_toFloat_eq_round (u : UInt64) : value u.toFloat = Value.round u.toNat := by
  have h := value_pack_normalize u.toNat 0
  rw [zpow_zero, mul_one, Int.cast_natCast] at h
  exact h

/-- The 64-bit integers do not overflow. -/
lemma two_pow_64_lt_limit : (2 : ℚ) ^ 64 < limit := by
  rw [← zpow_natCast]
  exact zpow_lt_zpow_right₀ (by norm_num) (by norm_num)

/-- The first number beyond the 64-bit integers is a double. -/
lemma representable_two_pow_64 : Representable (2 ^ 64) :=
  ⟨1, 64, by norm_num, by norm_num, by norm_num⟩

/-- No 64-bit number is too large for a double. -/
theorem value_toFloat (u : UInt64) : value u.toFloat = .finite (nearest u.toNat) := by
  have hu : (u.toNat : ℚ) ≤ 2 ^ 64 := by exact_mod_cast u.toNat_lt.le
  have hlimit : |(2 : ℚ) ^ 64| < limit := by
    rw [abs_of_pos (by norm_num)]
    exact two_pow_64_lt_limit
  rw [value_toFloat_eq_round]
  exact (round_of_mem representable_zero representable_two_pow_64 abs_zero_lt_limit hlimit
    (Nat.cast_nonneg _) hu).1

/-- The value of a literal below `2 ^ 53`. -/
lemma value_ofNat {n : ℕ} (h : n < 2 ^ 53) : value (Float.ofNat n) = .finite n := by
  have hrep : Representable n := representable_natCast h.le
  have hn : n.toUInt64.toNat = n := Nat.mod_eq_of_lt (by omega)
  have hfloat : value n.toUInt64.toFloat = .finite n := by
    rw [value_toFloat, hn, nearest_of_representable hrep]
  have hdef : Float.ofNat n = n.toUInt64.toFloat * 1.0 := dif_pos ⟨h, by norm_num⟩
  rw [hdef, value_mul, hfloat, value_one]
  show Value.round (n * 1) = _
  rw [mul_one]
  exact round_of_representable hrep (finite_spec hfloat).2

/-- The value of an integer literal below `2 ^ 53`. -/
lemma value_ofInt {n : ℤ} (h : |n| < 2 ^ 53) : value (Float.ofInt n) = .finite n := by
  cases n with
  | ofNat n =>
    rw [Int.ofNat_eq_natCast, Nat.abs_cast] at h
    exact value_ofNat (by exact_mod_cast h)
  | negSucc n =>
    have hdef : Float.ofInt (.negSucc n) = -Float.ofNat (n + 1) := rfl
    rw [Int.negSucc_eq, abs_neg] at h
    rw [hdef, value_neg, value_ofNat (by rw [abs_lt] at h; omega), Int.cast_negSucc]
    rfl

/-- Shifting to the right needs no further bits. -/
lemma abs_shiftRight_lt {n b : ℤ} (k : ℕ) (h : |n| < b) : |n >>> k| < b := by
  have hpow : (0 : ℤ) < 2 ^ k := by positivity
  rw [abs_lt] at h
  rw [Int.shiftRight_eq_div_pow, Nat.cast_pow, Nat.cast_ofNat, abs_lt]
  rcases le_or_gt 0 n with hn | hn
  · have hlow := Int.ediv_nonneg hn hpow.le
    have hhigh := Int.ediv_le_self (2 ^ k) hn
    constructor <;> linarith
  · have hlow : n ≤ n / 2 ^ k := by
      rw [Int.le_ediv_iff_mul_le hpow]
      exact mul_le_of_one_le_right hn.le hpow
    have hhigh := Int.ediv_neg_of_neg_of_pos hn hpow
    constructor <;> linarith

/-- A sign does not move a number away from zero. -/
lemma abs_apply_lt {s : Sign} {m n : ℕ} (h : m < n) : |s.apply m| < n := by
  cases s
  · rw [Sign.apply, abs_neg, Nat.abs_cast]
    exact_mod_cast h
  · rw [Sign.apply, Nat.abs_cast]
    exact_mod_cast h

/-- Shifting to the right is the floor. -/
lemma floor_signed (s : Sign) (m : ℕ) {e : ℤ} (he : e < 0) :
    ⌊signed s (m * 2 ^ e)⌋ = s.apply m >>> (-e).toNat := by
  obtain ⟨k, rfl⟩ : ∃ k : ℕ, e = -k := ⟨(-e).toNat, by omega⟩
  rw [signed_mul, neg_neg, Int.toNat_natCast, Int.shiftRight_eq_div_pow, zpow_neg, zpow_natCast,
    ← div_eq_mul_inv]
  exact_mod_cast Rat.floor_intCast_div_natCast (s.apply m) (2 ^ k)

/-- What a double of a finite value unpacks to. -/
lemma unpack_of_finite {x : Float} {q : ℚ} (h : value x = .finite q) :
    (∃ s, x.toModel.unpack = .zero s ∧ q = 0) ∨
      ∃ s m e hm, x.toModel.unpack = .finite s m e hm ∧ q = signed s (m * 2 ^ e) := by
  rw [value] at h
  cases hx : x.toModel.unpack with
  | notANumber =>
    rw [hx] at h
    cases h
  | infinity s =>
    rw [hx] at h
    cases h
  | zero s =>
    rw [hx] at h
    cases h
    exact .inl ⟨s, rfl, rfl⟩
  | finite s m e hm =>
    rw [hx] at h
    cases h
    exact .inr ⟨s, m, e, hm, rfl, rfl⟩

/-- The floor of a double is the floor of its value, not a rounding of it. -/
theorem value_floor {x : Float} {q : ℚ} (h : value x = .finite q) :
    value (floor x) = .finite ⌊q⌋ := by
  rcases unpack_of_finite h with ⟨s, hx, rfl⟩ | ⟨s, m, e, hm, hx, rfl⟩
  · rw [floor, hx, Int.floor_zero, Int.cast_zero]
    exact h
  · have hm53 : m < 2 ^ 53 := by
      have hc := canonical_unpack x.toModel
      rw [hx] at hc
      exact hc.1
    rw [floor, hx]
    by_cases he : 0 ≤ e
    · obtain ⟨k, rfl⟩ := Int.eq_ofNat_of_zero_le he
      have hwhole : signed s (m * 2 ^ (k : ℤ)) = (s.apply m * 2 ^ k : ℤ) := by
        rw [signed_mul, zpow_natCast]
        push_cast
        rfl
      simp only [if_pos he]
      rw [h, hwhole, Int.floor_intCast]
    · simp only [if_neg he]
      rw [floor_signed s m (by omega)]
      exact value_ofInt (abs_shiftRight_lt _ (abs_apply_lt hm53))

/-- The greatest 64-bit number is no double, so that adding one to a count does not wrap around. -/
theorem succ_lt_of_representable {n : ℕ} (h : Representable n) (hn : n < 2 ^ 64) :
    n + 1 < 2 ^ 64 := by
  by_contra! hlarge
  have h53 : (2 : ℚ) ^ 53 ≤ |(n : ℚ)| := by
    rw [Nat.abs_cast]
    exact_mod_cast (by omega : 2 ^ 53 ≤ n)
  obtain ⟨k, hk⟩ := exists_mul_two h h53
  have heven : (n : ℤ) = k * 2 := by exact_mod_cast hk
  omega

/-- Only finite doubles have a finite floor. -/
lemma exists_finite_of_floor {x : Float} {r : ℚ} (h : value (floor x) = .finite r) :
    ∃ q, value x = .finite q := by
  cases hx : x.toModel.unpack with
  | notANumber =>
    rw [floor, hx, value, hx] at h
    cases h
  | infinity s =>
    rw [floor, hx, value, hx] at h
    cases h
  | zero s => exact ⟨0, by rw [value, hx]; rfl⟩
  | finite s m e hm => exact ⟨_, value_of_unpack hx⟩

/-- Truncation keeps the whole part of the mantissa. -/
lemma roundToInt_positive (m : ℕ) (e : ℤ) : roundToInt .positive m e = ⌊(m : ℚ) * 2 ^ e⌋ := by
  have hv := decreaseExponent_value m e 0
  have he : (decreaseExponent m e 0).2 ≤ 0 := by
    simp only [decreaseExponent]
    omega
  have hdef : roundToInt .positive m e = ((ExtendedMantissa.ofMantissaAndAccuracy
    (decreaseExponent m e 0).1 .exact) >>> (0 - (decreaseExponent m e 0).2).toNat).mantissa := rfl
  rw [hdef]
  generalize (decreaseExponent m e 0).1 = n at hv ⊢
  obtain ⟨k, hk⟩ : ∃ k : ℕ, (decreaseExponent m e 0).2 = -k :=
    ⟨(-(decreaseExponent m e 0).2).toNat, by omega⟩
  rw [hk, zpow_neg, zpow_natCast, ← div_eq_mul_inv] at hv
  have hshift : (0 - -(k : ℤ)).toNat = k := by omega
  obtain ⟨hlow, hhigh⟩ := ((locates_ofMantissa_exact n).shiftRight k).mantissa_le_lt
  rw [hk, hshift, ← hv, eq_comm, Int.floor_eq_iff]
  exact ⟨hlow, hhigh⟩

/-- A number that has 64 bits is not clamped. -/
lemma toNat_ofNatClamp {n : ℕ} (h : n < 2 ^ 64) : (UInt64.ofNatClamp n).toNat = n := by
  have hsize : n < UInt64.size := h
  rw [UInt64.ofNatClamp, dif_pos hsize]
  rfl

/-- Within 64 bits, the conversion to an integer truncates. -/
theorem toNat_toUInt64 {x : Float} {q : ℚ} (h : value x = .finite q) (h0 : 0 ≤ q) (hq : q < 2 ^ 64) :
    x.toUInt64.toNat = ⌊q⌋₊ := by
  have hdef : x.toUInt64 = .ofNatClamp (x.toModel.unpack.toInt 0 (2 ^ 64 - 1)).toNat := rfl
  rw [hdef]
  rcases unpack_of_finite h with ⟨s, hx, rfl⟩ | ⟨s, m, e, hm, hx, rfl⟩
  · rw [hx, Nat.floor_zero]
    rfl
  · cases s with
    | negative => exact absurd h0 (not_le.mpr (neg_lt_zero.mpr (by positivity)))
    | positive =>
      have hint : (x.toModel.unpack.toInt 0 (2 ^ 64 - 1)).toNat = ⌊(m : ℚ) * 2 ^ e⌋₊ := by
        rw [hx, ← Int.floor_toNat, ← roundToInt_positive]
        rfl
      rw [signed_positive] at h0 hq ⊢
      rw [hint]
      apply toNat_ofNatClamp
      rw [Nat.floor_lt h0]
      exact_mod_cast hq

end PlanarNewton.Binary64
