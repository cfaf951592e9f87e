import PlanarNewton.Proofs.Binary64.Nearest
import PlanarNewton.Proofs.Binary64.Packing

/-!
# Rounding of unpacked numbers

The arithmetic of doubles rounds a mantissa by shifting it to the right and keeping, in two residual
bits, where the exact number lies (`Locates`). Here this is tied to `nearest`: `IsRounding s q u` says
that the unpacked number `u` is the rounding of the magnitude `q` with the sign `s`, and the main
statements `isRounding_roundWithAccuracy` and `isRounding_round` say that the two rounding functions
produce it.
-/

namespace PlanarNewton.Binary64
open Float.Model Float.Model.UnpackedFloat

/-- The rational lies where the mantissa and the two residual bits say. -/
def Locates (em : ExtendedMantissa) (x : ℚ) : Prop :=
  match em.roundBit, em.stickyBit with
  | false, false => x = em.mantissa
  | false, true => em.mantissa < x ∧ x < em.mantissa + 1 / 2
  | true, false => x = em.mantissa + 1 / 2
  | true, true => em.mantissa + 1 / 2 < x ∧ x < em.mantissa + 1

/-- The residual bits decide the nearest integer. -/
lemma Locates.roundedMantissa {em : ExtendedMantissa} {x : ℚ} (h : Locates em x) :
    roundEven x = em.roundedMantissa := by
  apply IsNearestInt.eq_roundEven
  obtain ⟨m, r, s⟩ := em
  cases r <;> cases s <;> simp only [Locates] at h
  case false.false =>
    left
    simp [h, ExtendedMantissa.roundedMantissa, ExtendedMantissa.accuracy, Accuracy.roundToNearestEven]
  case false.true =>
    left
    show |x - (m : ℤ)| < 1 / 2
    rw [abs_of_nonneg] <;> push_cast <;> linarith
  case true.false =>
    right
    show |x - ((m + m % 2 : ℕ) : ℤ)| = 1 / 2 ∧ ((m + m % 2 : ℕ) : ℤ) % 2 = 0
    refine ⟨?_, by omega⟩
    rcases Nat.mod_two_eq_zero_or_one m with h0 | h0
    · rw [h0, h, abs_of_nonneg] <;> push_cast <;> linarith
    · rw [h0, h, abs_of_nonpos] <;> push_cast <;> linarith
  case true.true =>
    left
    show |x - ((m + 1 : ℕ) : ℤ)| < 1 / 2
    rw [abs_of_nonpos] <;> push_cast <;> linarith

/-- A located number lies between the mantissa and the next one. -/
lemma Locates.mantissa_le_lt {em : ExtendedMantissa} {x : ℚ} (h : Locates em x) :
    em.mantissa ≤ x ∧ x < em.mantissa + 1 := by
  obtain ⟨m, r, s⟩ := em
  cases r <;> cases s <;> simp only [Locates] at h <;> constructor <;> simp <;> linarith

/-- The mantissa of an extended mantissa is the one that it was made of. -/
lemma mantissa_ofMantissaAndAccuracy (m : ℕ) (acc : Accuracy) :
    (ExtendedMantissa.ofMantissaAndAccuracy m acc).mantissa = m := by
  rcases acc with _ | (_ | _ | _) <;> rfl

/-- Shifting by one halves the number, and the residual bits follow. -/
lemma Locates.shiftRightOne {em : ExtendedMantissa} {x : ℚ} (h : Locates em x) :
    Locates em.shiftRightOne (x / 2) := by
  obtain ⟨m, r, s⟩ := em
  have hm : (m : ℚ) = 2 * (m / 2 : ℕ) + (m % 2 : ℕ) := by exact_mod_cast (Nat.div_add_mod m 2).symm
  rcases Nat.mod_two_eq_zero_or_one m with h0 | h0 <;> rw [h0] at hm <;> push_cast at hm <;>
    cases r <;> cases s <;> simp only [Locates] at h <;>
    simp [Locates, ExtendedMantissa.shiftRightOne, h0]
  all_goals first | (constructor <;> linarith) | linarith

/-- After a shift to the right, a divided number is located. -/
lemma Locates.shiftRight {em : ExtendedMantissa} {x : ℚ} (h : Locates em x) (n : ℕ) :
    Locates (em >>> n) (x / 2 ^ n) := by
  induction n with
  | zero =>
    rw [pow_zero, div_one]
    exact h
  | succ n ih =>
    have h1 := ih.shiftRightOne
    rw [div_div, ← pow_succ] at h1
    exact h1

/-- The exponent that a number is rounded to has 53 bits above it, or is the least one. -/
lemma targetExponent_eq (m : ℕ) (e : ℤ) :
    Format.binary64.targetExponent (totalExponent m e) = max (m.log2 + e - 52) (-1074) := by
  show max ((m.log2 : ℤ) + 1 + e - 53) (-1074) = _
  congr 1
  omega

/-- A number with whole part `m` has its last place where a mantissa `m` is shifted to. -/
lemma lastPlace_eq_targetExponent {m : ℕ} {e : ℤ} {x : ℚ} (hx : 0 < x) (hl : m ≤ x) (hu : x < m + 1)
    (he : e ≤ Format.binary64.targetExponent (totalExponent m e)) :
    lastPlace (x * 2 ^ e) = Format.binary64.targetExponent (totalExponent m e) := by
  rw [targetExponent_eq] at he ⊢
  have hp : (0 : ℚ) < 2 ^ e := by positivity
  have habs : |x * 2 ^ e| = x * 2 ^ e := abs_of_pos (by positivity)
  have hlog : m + 1 ≤ 2 ^ (m.log2 + 1) := Nat.lt_log2_self
  apply lastPlace_eq (by positivity) (by omega) <;> rw [habs]
  · calc x * 2 ^ e < (m + 1 : ℕ) * 2 ^ e := by push_cast; gcongr
      _ ≤ (2 ^ (m.log2 + 1) : ℕ) * 2 ^ e := by gcongr
      _ = 2 ^ ((m.log2 : ℤ) + 1 + e) := by
        rw [zpow_add₀ (by norm_num)]
        push_cast
        norm_cast
      _ ≤ _ := zpow_le_zpow_right₀ (by norm_num) (by omega)
  · rcases le_total ((m.log2 : ℤ) + e - 52) (-1074) with h | h
    · exact .inl (by omega)
    · right
      have h0 : m ≠ 0 := by
        rintro rfl
        simp only [Nat.log2_zero] at he h
        omega
      calc (2 : ℚ) ^ (max ((m.log2 : ℤ) + e - 52) (-1074) + 52) = 2 ^ ((m.log2 : ℤ) + e) := by
            congr 1
            omega
        _ = (2 ^ m.log2 : ℕ) * 2 ^ e := by
          rw [zpow_add₀ (by norm_num)]
          push_cast
          norm_cast
        _ ≤ (m : ℕ) * 2 ^ e := by
          gcongr
          exact Nat.log2_self_le h0
        _ ≤ x * 2 ^ e := by gcongr

/-- An exact mantissa locates itself. -/
lemma locates_ofMantissa_exact (m : ℕ) :
    Locates (ExtendedMantissa.ofMantissaAndAccuracy m .exact) m := rfl

/-- A mantissa that fits is not shifted. -/
lemma shiftToTargetExponent_of_lt {m : ℕ} {t : ℤ} (hm : m < 2 ^ 53) (ht : -1074 ≤ t) :
    shiftToTargetExponent Format.binary64 m t .exact = (⟨m, false, false⟩, t) := by
  have hlog : m.log2 ≤ 52 := by
    rcases eq_or_ne m 0 with rfl | h0
    · decide
    · have := (Nat.log2_lt h0).mpr hm
      omega
  have h : (Format.binary64.targetExponent (totalExponent m t) - t).toNat = 0 := by
    rw [targetExponent_eq]
    omega
  simp only [shiftToTargetExponent, shiftToExponent, h]
  exact Prod.ext rfl (add_zero t)

/-- A mantissa that rounding carried into a bit too many is shifted by one. -/
lemma shiftToTargetExponent_carry {t : ℤ} (ht : -1074 ≤ t) :
    shiftToTargetExponent Format.binary64 (2 ^ 53) t .exact = (⟨2 ^ 52, false, false⟩, t + 1) := by
  have h : (Format.binary64.targetExponent (totalExponent (2 ^ 53) t) - t).toNat = 1 := by
    rw [targetExponent_eq, Nat.log2_two_pow]
    omega
  simp only [shiftToTargetExponent, shiftToExponent, h]
  rfl

/-- The canonical numbers that a positive rational `q` with a sign `s` is rounded to. -/
inductive IsRounding (s : Sign) (q : ℚ) : UnpackedFloat → Prop where
  | zero : nearest q = 0 → IsRounding s q (.zero s)
  | finite {m : ℕ} {e : ℤ} {hm : 0 < m} :
    Canonical (.finite s m e hm) → nearest q = m * 2 ^ e → IsRounding s q (.finite s m e hm)

/-- A rounded number is canonical. -/
lemma IsRounding.canonical {s : Sign} {q : ℚ} {u : UnpackedFloat} (h : IsRounding s q u) :
    Canonical u := by
  cases h with
  | zero => trivial
  | finite hc _ => exact hc

/-- The number with the given mantissa, which may be zero. -/
def ofMantissa (s : Sign) (m : ℕ) (e : ℤ) : UnpackedFloat :=
  if h : m = 0 then .zero s else .finite s m e (Nat.pos_of_ne_zero h)

/-- The number with a rounded mantissa, which may have a bit too many. -/
def carry (s : Sign) (R : ℕ) (t : ℤ) : UnpackedFloat :=
  let r := shiftToTargetExponent Format.binary64 R t .exact
  ofMantissa s r.1.mantissa r.2

/-- Rounding is one shift, the choice of the mantissa, and the carry. -/
lemma roundWithAccuracy_eq_carry (s : Sign) (m : ℕ) (e : ℤ) (acc : Accuracy) :
    roundWithAccuracy Format.binary64 s m e acc =
      carry s (shiftToTargetExponent Format.binary64 m e acc).1.roundedMantissa
        (shiftToTargetExponent Format.binary64 m e acc).2 := rfl

/-- A mantissa rounded at the last place gives the rounding. -/
lemma isRounding_carry (s : Sign) {q : ℚ} {R : ℕ} (hq : 0 < q)
    (hR : roundEven (q / 2 ^ lastPlace q) = R) : IsRounding s q (carry s R (lastPlace q)) := by
  have hmin := neg_1074_le_lastPlace q
  have hval : nearest q = R * 2 ^ lastPlace q := by
    rw [nearest, hR, Int.cast_natCast]
  have hle : R ≤ 2 ^ 53 := by
    have h := nearest_le_two_zpow q
    have h1 : (2 : ℚ) ^ (lastPlace q + 53) = _ := two_zpow_add (lastPlace q) 53
    rw [hval, h1, mul_le_mul_iff_left₀ (by positivity)] at h
    exact_mod_cast h
  -- Either 53 bits hold the mantissa, or it is a power of two and goes to the next exponent.
  rcases hle.lt_or_eq with hlt | rfl
  · rw [carry, shiftToTargetExponent_of_lt hlt hmin]
    by_cases h0 : R = 0
    · subst h0
      refine .zero ?_
      rw [hval, Nat.cast_zero, zero_mul]
    · have hc : 2 ^ 52 ≤ R ∨ lastPlace q = -1074 := by
        by_cases hl : lastPlace q = -1074
        · exact .inr hl
        · left
          have h := two_zpow_le_nearest hq (by omega)
          have h1 : (2 : ℚ) ^ (lastPlace q + 52) = _ := two_zpow_add (lastPlace q) 52
          rw [hval, h1, mul_le_mul_iff_left₀ (by positivity)] at h
          exact_mod_cast h
      rw [ofMantissa, dif_neg h0]
      exact .finite ⟨hlt, hmin, hc⟩ hval
  · rw [carry, shiftToTargetExponent_carry hmin]
    refine .finite ⟨by norm_num, by omega, .inl le_rfl⟩ ?_
    rw [hval, zpow_add₀ (by norm_num)]
    push_cast
    ring

/-- Rounding a mantissa with a known accuracy is rounding the number that they stand for. -/
lemma isRounding_roundWithAccuracy (s : Sign) {m : ℕ} {e : ℤ} {acc : Accuracy} {x : ℚ} (hpos : 0 < x)
    (hx : Locates (ExtendedMantissa.ofMantissaAndAccuracy m acc) x)
    (he : e ≤ Format.binary64.targetExponent (totalExponent m e)) :
    IsRounding s (x * 2 ^ e) (roundWithAccuracy Format.binary64 s m e acc) := by
  obtain ⟨hl, hu⟩ := hx.mantissa_le_lt
  rw [mantissa_ofMantissaAndAccuracy] at hl hu
  have ht := lastPlace_eq_targetExponent hpos hl hu he
  generalize hk : (Format.binary64.targetExponent (totalExponent m e) - e).toNat = k
  have hek : e + k = lastPlace (x * 2 ^ e) := by omega
  have hdiv : x / 2 ^ k = x * 2 ^ e / 2 ^ lastPlace (x * 2 ^ e) := by
    rw [← hek, zpow_add₀ (by norm_num), zpow_natCast]
    field_simp
  have hR := (hx.shiftRight k).roundedMantissa
  rw [hdiv] at hR
  rw [roundWithAccuracy_eq_carry]
  simp only [shiftToTargetExponent, shiftToExponent, hk, hek]
  exact isRounding_carry s (by positivity) hR

/-- Moving the exponent down does not change the value. -/
lemma decreaseExponent_value (m : ℕ) (e t : ℤ) :
    ((decreaseExponent m e t).1 : ℚ) * 2 ^ (decreaseExponent m e t).2 = m * 2 ^ e := by
  simp only [decreaseExponent, Nat.shiftLeft_eq]
  push_cast
  rw [mul_assoc, ← zpow_natCast, ← zpow_add₀ (by norm_num)]
  congr 2
  omega

/-- A shift to the left adds to the logarithm. -/
lemma log2_shiftLeft {m : ℕ} (hm : 0 < m) (k : ℕ) : (m <<< k).log2 = m.log2 + k := by
  rw [Nat.shiftLeft_eq, Nat.log2_eq_iff (by positivity), add_right_comm, pow_add, pow_add]
  constructor
  · gcongr
    exact Nat.log2_self_le hm.ne'
  · gcongr
    exact Nat.lt_log2_self

/-- Moving the exponent down does not change the place of the first bit. -/
lemma totalExponent_decreaseExponent {m : ℕ} (hm : 0 < m) (e t : ℤ) :
    totalExponent (decreaseExponent m e t).1 (decreaseExponent m e t).2 = totalExponent m e := by
  simp only [totalExponent, decreaseExponent, log2_shiftLeft hm]
  push_cast
  omega

/-- Rounding an exact mantissa, whatever its exponent. -/
lemma isRounding_round (s : Sign) {m : ℕ} (e : ℤ) (hm : 0 < m) :
    IsRounding s (m * 2 ^ e) (UnpackedFloat.round Format.binary64 s m e) := by
  have hv := decreaseExponent_value m e (Format.binary64.targetExponent (totalExponent m e))
  have ht := totalExponent_decreaseExponent hm e (Format.binary64.targetExponent (totalExponent m e))
  rw [← hv]
  apply isRounding_roundWithAccuracy s _ (locates_ofMantissa_exact _)
  · rw [ht]
    simp only [decreaseExponent]
    omega
  · simp only [decreaseExponent, Nat.shiftLeft_eq]
    positivity

end PlanarNewton.Binary64
