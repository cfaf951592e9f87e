import PlanarNewton.Proofs.Binary64.Algebra

/-!
# Bounds of rounded sums

Rounding keeps the order up to the infinities (`Value.round_mono`), and so do sums
(`Value.finite_add_mono`) and multiples by a positive number (`Value.mul_finite_mono`). A sum is rounded
to no less than any double that is not above it (`Value.le_add`), and not to negative infinity either.
Taking at most one away from a double leads down by at most two, since the double itself is near
(`Value.exists_round_sub`); so the least double does not fall off the range.
-/

namespace PlanarNewton.Binary64
open Value Float.Model.UnpackedFloat

/-- The largest double is one last place below the limit. -/
lemma abs_add_le_limit {q : ℚ} (h : Representable q) (hq : |q| < limit) :
    |q| + 2 ^ (971 : ℤ) ≤ limit := by
  obtain ⟨m, e, hm, -, rfl⟩ := h
  have hlimit : limit = ((2 ^ 53 : ℤ) : ℚ) * 2 ^ (971 : ℤ) := by
    rw [← two_zpow_add, limit]
    congr 1
  simp only [abs_mul_two_zpow, hlimit] at hq ⊢
  -- In units of `2 ^ 971`, it is below `2 ^ 53`, so that it is at most one less.
  suffices h : ((|m| : ℤ) : ℚ) * 2 ^ e ≤ ((2 ^ 53 - 1 : ℤ) : ℚ) * 2 ^ (971 : ℤ) by
    generalize (2 : ℚ) ^ (971 : ℤ) = unit at h ⊢
    push_cast at h ⊢
    linarith
  rcases le_total e 971 with he | he
  · have hm' : |m| ≤ 2 ^ 53 - 1 := by omega
    gcongr
    norm_num
  · obtain ⟨k, hk⟩ := Int.eq_ofNat_of_zero_le (sub_nonneg.mpr he)
    obtain rfl : e = 971 + k := by omega
    rw [two_zpow_add, ← mul_assoc, ← Int.cast_mul] at hq ⊢
    have hlt : |m| * 2 ^ k < 2 ^ 53 := by
      exact_mod_cast lt_of_mul_lt_mul_right hq (by positivity)
    have hle : |m| * 2 ^ k ≤ 2 ^ 53 - 1 := by omega
    gcongr

/-- Taking away at most one leads down by at most two. -/
lemma Value.exists_round_sub {p h : ℚ} (hp : Representable p) (hl : |p| < limit) (h0 : 0 ≤ h)
    (h1 : h ≤ 1) : ∃ r, Value.round (p - h) = .finite r ∧ p - 2 ≤ r := by
  have hnear := abs_sub_nearest_le_of_representable (p - h) hp
  rw [sub_sub_cancel_left, abs_neg, abs_of_nonneg h0] at hnear
  obtain ⟨hlow, hhigh⟩ := abs_le.mp hnear
  obtain ⟨hlow', hhigh'⟩ := abs_le.mp (le_refl |p|)
  have hgap := abs_add_le_limit hp hl
  have htwo : (2 : ℚ) ^ (1 : ℤ) < 2 ^ (971 : ℤ) := zpow_lt_zpow_right₀ one_lt_two (by norm_num)
  rw [zpow_one] at htwo
  generalize (2 : ℚ) ^ (971 : ℤ) = gap at hgap htwo
  exact ⟨nearest (p - h), if_pos (abs_lt.mpr ⟨by linarith, by linarith⟩), by linarith⟩

/-- A rational number is never rounded to something that is not a number. -/
lemma Value.round_ne_nan (q : ℚ) : Value.round q ≠ nan := by
  intro h
  rw [Value.round] at h
  split at h <;> cases h

/-- Only numbers are compared. -/
lemma Value.ne_nan_of_le {x y : Value} (h : x.le y = true) : x ≠ nan ∧ y ≠ nan := by
  constructor
  · rintro rfl
    cases h
  · rintro rfl
    cases x <;> cases h

/-- No number is above infinity. -/
lemma Value.le_infinite_positive {x : Value} (h : x ≠ nan) : x.le (infinite .positive) = true := by
  cases x with
  | nan => exact absurd rfl h
  | infinite s => cases s <;> rfl
  | finite q => rfl

/-- No number is below negative infinity. -/
lemma Value.infinite_negative_le {x : Value} (h : x ≠ nan) : (infinite .negative).le x = true := by
  cases x with
  | nan => exact absurd rfl h
  | infinite s => cases s <;> rfl
  | finite q => rfl

/-- A number overflows if its nearest double would be beyond the finite ones. -/
lemma Value.round_overflow {q : ℚ} (h : limit ≤ nearest q) :
    Value.round q = infinite .positive := by
  have hq : ¬q < 0 := fun hneg => (limit_pos.trans_le h).not_ge (nearest_nonpos hneg.le)
  rw [Value.round, if_neg (not_lt.mpr (h.trans (le_abs_self _))), signOf, if_neg hq]

/-- A number overflows to the negative side if its nearest double would be beyond the finite ones.
-/
lemma Value.round_overflow_neg {q : ℚ} (h : nearest q ≤ -limit) :
    Value.round q = infinite .negative := by
  have hq : q < 0 := lt_of_not_ge fun hpos =>
    (neg_lt_zero.mpr limit_pos).not_ge ((nearest_nonneg hpos).trans h)
  have habs : limit ≤ |nearest q| := (le_neg.mpr h).trans (neg_le_abs _)
  rw [Value.round, if_neg (not_lt.mpr habs), signOf, if_pos hq]

/-- Rounding keeps the order, where everything that overflows is put at the ends. -/
theorem Value.round_mono {p q : ℚ} (h : p ≤ q) : (Value.round p).le (Value.round q) = true := by
  have hmono := nearest_mono h
  rcases le_or_gt limit (nearest q) with hq | hq
  · rw [round_overflow hq]
    exact le_infinite_positive (round_ne_nan p)
  rcases le_or_gt (nearest p) (-limit) with hp | hp
  · rw [round_overflow_neg hp]
    exact infinite_negative_le (round_ne_nan q)
  · rw [Value.round, Value.round, if_pos (abs_lt.mpr ⟨hp, hmono.trans_lt hq⟩),
      if_pos (abs_lt.mpr ⟨hp.trans_le hmono, hq⟩), finite_le]
    exact hmono

/-- A finite value can be added to any number. -/
lemma Value.finite_add_ne_nan (p : ℚ) {x : Value} (h : x ≠ nan) : (finite p).add x ≠ nan := by
  cases x with
  | nan => exact h
  | infinite s => exact nofun
  | finite q => exact round_ne_nan _

/-- Adding to a finite number keeps the order. -/
theorem Value.finite_add_mono (p : ℚ) {x y : Value} (h : x.le y = true) :
    ((finite p).add x).le ((finite p).add y) = true := by
  obtain ⟨hx, hy⟩ := ne_nan_of_le h
  cases x with
  | nan => exact absurd rfl hx
  | infinite s =>
    cases s with
    | negative => exact infinite_negative_le (finite_add_ne_nan p hy)
    | positive =>
      cases y with
      | nan => exact absurd rfl hy
      | infinite t => exact h
      | finite q => cases h
  | finite q =>
    cases y with
    | nan => exact absurd rfl hy
    | infinite t =>
      cases t with
      | negative => cases h
      | positive => exact le_infinite_positive (round_ne_nan _)
    | finite r => exact round_mono (add_le_add_right ((finite_le q r).mp h) p)

/-- An infinite value stays the same when multiplied by a positive number. -/
lemma Value.infinite_mul_finite (s : Sign) {q : ℚ} (hq : 0 < q) :
    (infinite s).mul (finite q) = infinite s := by
  show (if q = 0 then nan else infinite (s * signOf q)) = infinite s
  rw [if_neg hq.ne', signOf, if_neg hq.le.not_gt]
  cases s <;> rfl

/-- A number stays one when multiplied by a positive number. -/
lemma Value.mul_finite_ne_nan {x : Value} (h : x ≠ nan) {q : ℚ} (hq : 0 < q) :
    x.mul (finite q) ≠ nan := by
  cases x with
  | nan => exact absurd rfl h
  | infinite s =>
    rw [infinite_mul_finite s hq]
    exact nofun
  | finite p => exact round_ne_nan _

/-- Multiplying by a positive number keeps the order. -/
theorem Value.mul_finite_mono {x y : Value} (h : x.le y = true) {q : ℚ} (hq : 0 < q) :
    (x.mul (finite q)).le (y.mul (finite q)) = true := by
  obtain ⟨hx, hy⟩ := ne_nan_of_le h
  cases x with
  | nan => exact absurd rfl hx
  | infinite s =>
    rw [infinite_mul_finite s hq]
    cases s with
    | negative => exact infinite_negative_le (mul_finite_ne_nan hy hq)
    | positive =>
      cases y with
      | nan => exact absurd rfl hy
      | infinite t =>
        rw [infinite_mul_finite t hq]
        exact h
      | finite r => cases h
  | finite p =>
    cases y with
    | nan => exact absurd rfl hy
    | infinite t =>
      rw [infinite_mul_finite t hq]
      cases t with
      | negative => cases h
      | positive => exact le_infinite_positive (round_ne_nan _)
    | finite r => exact round_mono (mul_le_mul_of_nonneg_right ((finite_le p r).mp h) hq.le)

/-- Rounding does not lead below a double, to negative infinity least of all. -/
lemma Value.le_round {p q : ℚ} (hp : Representable p) (hl : |p| < limit) (h : p ≤ q) :
    (finite p).le (Value.round q) = true := by
  rw [← round_of_representable hp hl]
  exact round_mono h

/-- A sum is not below a double that is not above its terms together. -/
lemma Value.le_add {x y : Value} {p q r : ℚ} (hr : Representable r) (hl : |r| < limit)
    (hx : (finite p).le x = true) (hy : y = .finite q) (h : r ≤ p + q) :
    (finite r).le (x.add y) = true := by
  subst hy
  cases x with
  | nan => cases hx
  | infinite s =>
    cases s with
    | negative => cases hx
    | positive => rfl
  | finite x =>
    rw [finite_le] at hx
    exact le_round hr hl (by linarith)

end PlanarNewton.Binary64
