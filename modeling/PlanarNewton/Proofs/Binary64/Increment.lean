import PlanarNewton.Proofs.Binary64.Bounds
import PlanarNewton.Proofs.Random.Uniform

/-!
# Adding one

Below a certain negative number, adding one to a double does not lead up: `stall` is a fixed point, since
the sum lies halfway between two doubles and the even one is the lower one, and whatever is below `stall`
stays there (`add_one_le_stall`). The next double above already leads up, over `-2 ^ 53` to the numbers
around zero, where adding one is at least as good as adding one to the integer below (`exists_add_one`).
-/

namespace PlanarNewton.Binary64
open Value Float.Model Float.Model.UnpackedFloat

/-- The greatest double from which adding one never leads up: `-(2 ^ 53 + 4)`. -/
def stall : Float := -9007199254740996.0

/-- The value of a double, from its sign, its mantissa and its exponent. -/
lemma value_of_unpack {x : Float} {s : Sign} {m : ℕ} {e : ℤ} {hm : 0 < m}
    (h : x.toModel.unpack = .finite s m e hm) : value x = .finite (signed s (m * 2 ^ e)) := by
  rw [value, h]
  rfl

/-- The value of `stall`. -/
lemma value_stall : value stall = .finite (-(2 ^ 53 + 4)) := by
  have h : stall.toModel.unpack = .finite .negative (2 ^ 52 + 2) 1 (by norm_num) := rfl
  rw [value_of_unpack h, signed_negative]
  norm_num

/-- The value of ten. -/
lemma value_ten : value 10.0 = .finite 10 := by
  have h : (10.0 : Float).toModel.unpack = .finite .positive (5 * 2 ^ 50) (-49) (by norm_num) := rfl
  rw [value_of_unpack h, signed_positive]
  norm_num

/-- Integers of 53 bits at most are doubles. -/
lemma representable_intCast {n : ℤ} (h : |n| ≤ 2 ^ 53) : Representable n := by
  have h1 := representable_of_le (m := n) (e := 0) h (by norm_num)
  rwa [zpow_zero, mul_one] at h1

/-- Integers of 53 bits at most do not overflow. -/
lemma abs_intCast_lt_limit {n : ℤ} (h : |n| ≤ 2 ^ 53) : |(n : ℚ)| < limit := by
  have h1 : |(n : ℚ)| ≤ 2 ^ (53 : ℤ) := by exact_mod_cast h
  exact h1.trans_lt (zpow_lt_zpow_right₀ (by norm_num) (by norm_num))

/-- Between `2 ^ 53` and `2 ^ 54`, an odd integer is rounded to the even one of its even neighbours. -/
lemma nearest_odd {n : ℤ} {k : ℤ} (hn : 2 ^ 53 ≤ n) (hn' : n < 2 ^ 54) (hk : |n - 4 * k| = 1) :
    nearest n = 4 * k := by
  have h0 : (2 : ℚ) ^ 53 ≤ n := by exact_mod_cast hn
  have h1 : (n : ℚ) < 2 ^ 54 := by exact_mod_cast hn'
  have hpos : (0 : ℚ) < n := lt_of_lt_of_le (by norm_num) h0
  have hplace : lastPlace n = 1 := by
    apply lastPlace_eq hpos.ne' (by norm_num)
    · rw [abs_of_pos hpos]
      exact h1
    · rw [abs_of_pos hpos]
      exact .inr h0
  have hround : roundEven ((n : ℚ) / 2 ^ (1 : ℤ)) = 2 * k := by
    apply IsNearestInt.eq_roundEven
    refine .inr ⟨?_, Int.mul_emod_right 2 k⟩
    have habs : |(n : ℚ) - 4 * k| = 1 := by exact_mod_cast hk
    have hhalf : (n : ℚ) / 2 ^ (1 : ℤ) - ((2 * k : ℤ) : ℚ) = (n - 4 * k) / 2 := by
      push_cast
      ring
    rw [hhalf, abs_div, habs]
    norm_num
  rw [nearest, hplace, hround]
  push_cast
  ring

/-- One above `stall` is rounded back to it. -/
lemma nearest_stall_add_one : nearest (-(2 ^ 53 + 3)) = -(2 ^ 53 + 4) := by
  have h := nearest_odd (n := 2 ^ 53 + 3) (k := 2 ^ 51 + 1) (by norm_num) (by norm_num) (by norm_num)
  rw [nearest_neg]
  norm_num at h ⊢
  exact h

/-- One above the double after `stall` is rounded up. -/
lemma nearest_stall_add_three : nearest (-(2 ^ 53 + 1)) = -(2 ^ 53) := by
  have h := nearest_odd (n := 2 ^ 53 + 1) (k := 2 ^ 51) (by norm_num) (by norm_num) (by norm_num)
  rw [nearest_neg]
  norm_num at h ⊢
  exact h

/-- From `2 ^ 53` on, numbers with 53 bits are even. -/
lemma exists_mul_two {q : ℚ} (hq : Representable q) (h : 2 ^ 53 ≤ |q|) : ∃ n : ℤ, q = (n * 2 : ℤ) := by
  obtain ⟨m, e, hm, -, rfl⟩ := hq
  have he : 1 ≤ e := by
    by_contra! he
    have h1 := mul_two_zpow_lt (e := e) hm
    have h2 : (2 : ℚ) ^ (e + 53) ≤ 2 ^ (53 : ℤ) := zpow_le_zpow_right₀ (by norm_num) (by omega)
    exact h.not_gt (by exact_mod_cast h1.trans_le h2)
  obtain ⟨k, rfl⟩ : ∃ k : ℕ, e = 1 + k := ⟨(e - 1).toNat, by omega⟩
  refine ⟨m * 2 ^ k, ?_⟩
  rw [two_zpow_add, zpow_one, ← mul_assoc]
  push_cast
  rfl

/-- The double after `stall` is `-(2 ^ 53 + 2)`. -/
lemma le_of_stall_lt {q : ℚ} (hq : Representable q) (h : -(2 ^ 53 + 4) < q) : -(2 ^ 53 + 2) ≤ q := by
  by_contra! hlt
  have hlarge : 2 ^ 53 ≤ |q| := by
    rw [abs_of_neg (by linarith)]
    linarith
  obtain ⟨n, rfl⟩ := exists_mul_two hq hlarge
  have h1 : -(2 ^ 53 + 4) < n * 2 := by exact_mod_cast h
  have h2 : n * 2 < -(2 ^ 53 + 2) := by exact_mod_cast hlt
  omega

/-- The comparison with `stall`, in values. -/
lemma finite_le_stall {x : Float} {q : ℚ} (h : value x = .finite q) :
    x ≤ stall ↔ q ≤ -(2 ^ 53 + 4) := by
  rw [le_iff, h, value_stall, finite_le]

/-- Below `stall`, adding one does not lead out. -/
theorem add_one_le_stall {x : Float} (h : x ≤ stall) : x + 1.0 ≤ stall := by
  cases hx : value x with
  | nan =>
    rw [le_iff, hx, value_stall] at h
    cases h
  | infinite s =>
    rw [le_iff, hx, value_stall] at h
    rw [le_iff, value_add, hx, value_one, value_stall]
    cases s with
    | negative => rfl
    | positive => cases h
  | finite q =>
    have hq := (finite_le_stall hx).mp h
    obtain ⟨hrep, hlimit⟩ := finite_spec hx
    have hsum : q + 1 ≤ -(2 ^ 53 + 3) := by linarith
    have hnearest : nearest (q + 1) ≤ -(2 ^ 53 + 4) := nearest_stall_add_one ▸ nearest_mono hsum
    have hround : Value.round (q + 1) = .finite (nearest (q + 1)) :=
      (round_of_mem hrep (representable_intCast (n := 0) (by norm_num)) hlimit
        (abs_intCast_lt_limit (by norm_num)) (by linarith) (by push_cast; linarith)).1
    have hvalue : value (x + 1.0) = .finite (nearest (q + 1)) := by
      rw [value_add, hx, value_one]
      exact hround
    exact (finite_le_stall hvalue).mpr hnearest

/-- Adding a positive number does not lead below. -/
lemma le_stall_of_add {x y : Float} {r : ℚ} (hy : value y = .finite r) (hr : 0 ≤ r)
    (h : x + y ≤ stall) : x ≤ stall := by
  rw [le_iff, value_add, hy, value_stall] at h
  rw [le_iff, value_stall]
  cases hx : value x with
  | nan =>
    rw [hx] at h
    cases h
  | infinite s =>
    rw [hx] at h
    cases s with
    | negative => rfl
    | positive => cases h
  | finite q =>
    rw [hx] at h
    obtain ⟨hrep, hlimit⟩ := finite_spec hx
    -- The sum of a double and a positive number is too large in the positive direction only.
    have hle : (finite q).le (Value.round (q + r)) = true := le_round hrep hlimit (by linarith)
    exact Value.le_trans hle h

/-- Above `stall`, adding one to a small number is as good as adding one to an integer below. -/
theorem exists_add_one {x : Float} {q : ℚ} (hx : value x = .finite q) (hq : -(2 ^ 53 + 4) < q)
    (h10 : q < 10) : ∃ r, value (x + 1.0) = .finite r ∧ -(2 ^ 53) ≤ r ∧
      ∀ n : ℤ, -(2 ^ 53) ≤ n → n ≤ q → n + 1 ≤ r := by
  obtain ⟨hrep, hlimit⟩ := finite_spec hx
  have hlow := le_of_stall_lt hrep hq
  have h11 : Representable ((11 : ℤ) : ℚ) := representable_intCast (by norm_num)
  have hlimit' : |((11 : ℤ) : ℚ)| < limit := abs_intCast_lt_limit (by norm_num)
  obtain ⟨hround, -, -⟩ := round_of_mem hrep h11 hlimit hlimit' (q := q + 1) (by linarith)
    (by push_cast; linarith)
  refine ⟨nearest (q + 1), ?_, ?_, ?_⟩
  · rw [value_add, hx, value_one]
    exact hround
  · rw [← nearest_stall_add_three]
    exact nearest_mono (by linarith)
  · intro n hn hnq
    have hn10 : n < 10 := by exact_mod_cast hnq.trans_lt h10
    have hrep' : Representable ((n + 1 : ℤ) : ℚ) :=
      representable_intCast (by rw [abs_le]; omega)
    have h1 := le_nearest_of_le hrep' (q := q + 1) (by push_cast; linarith)
    push_cast at h1
    exact h1

end PlanarNewton.Binary64
