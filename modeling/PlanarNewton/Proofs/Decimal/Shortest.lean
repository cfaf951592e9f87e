import PlanarNewton.Decimal.Shortest
import PlanarNewton.Proofs.Binary64.Value

/-!
# The shortest decimal rounds to its double

The numbers that round to a positive double are those of its cell (`nearest_of_contains`): up to half a
last place away, and only a quarter below a power of two. The search for a decimal stops in the cell
(`contains_search`), because what it returns from a grid lies there, and on a grid that is not coarser
than the units of the cell it finds something. The grids reach that far for every double, by comparing
powers of ten and of two (`ten_zpow_le`). Main statement: `round_shortest`.
-/

namespace PlanarNewton
open Binary64 Float.Model Float.Model.UnpackedFloat

namespace Binary64

/-- A number of 53 bits before the point is rounded to its nearest integer. -/
lemma nearest_mul_two_zpow_of_isNearestInt {x : ℚ} {t n : ℤ} (ht : -1074 ≤ t) (h0 : 0 < x)
    (hx : x < 2 ^ 53) (hl : t = -1074 ∨ 2 ^ 52 ≤ x) (hn : IsNearestInt x n) :
    Binary64.nearest (x * 2 ^ t) = n * 2 ^ t := by
  have habs : |x * 2 ^ t| = x * 2 ^ t := abs_of_pos (by positivity)
  have h53 : (2 : ℚ) ^ (t + 53) = 2 ^ 53 * 2 ^ t := two_zpow_add t 53
  have h52 : (2 : ℚ) ^ (t + 52) = 2 ^ 52 * 2 ^ t := two_zpow_add t 52
  have hlast : lastPlace (x * 2 ^ t) = t := by
    apply lastPlace_eq (by positivity) ht
    · rw [habs, h53]
      gcongr
    · rw [habs, h52]
      exact hl.imp_right fun h => by gcongr
  rw [Binary64.nearest, hlast, mul_div_cancel_right₀ _ (by positivity), hn.eq_roundEven]

/-- Up to a quarter below a power of two is half of the smaller last place there, and a tie goes up. -/
lemma nearest_mul_two_zpow_of_lt_power {x : ℚ} {t : ℤ} (ht : -1074 < t) (h : 2 ^ 52 - 1 / 4 ≤ x)
    (hx : x < 2 ^ 52) : Binary64.nearest (x * 2 ^ t) = 2 ^ 52 * 2 ^ t := by
  have hint : IsNearestInt (2 * x) (2 ^ 53) := by
    have hle : |2 * x - (2 ^ 53 : ℤ)| ≤ 1 / 2 := by
      rw [abs_le]
      push_cast
      constructor <;> linarith
    exact hle.lt_or_eq.imp_right fun heq => ⟨heq, by norm_num⟩
  have hhalf : (2 : ℚ) ^ t = 2 * 2 ^ (t - 1) := by
    rw [zpow_sub₀ (by norm_num), zpow_one]
    field_simp
  have hn := nearest_mul_two_zpow_of_isNearestInt (by omega : -1074 ≤ t - 1)
    (by linarith) (by linarith) (.inr (by linarith)) hint
  rw [hhalf, ← mul_assoc, mul_comm x, hn]
  push_cast
  ring

end Binary64

namespace Decimal

/-- The number that a decimal stands for. -/
def toRat (d : Decimal) : ℚ :=
  d.significand * 10 ^ d.exponent

namespace Cell

variable {c : Cell}

/-- The number lies in the cell. -/
def Contains (c : Cell) (q : ℚ) : Prop :=
  if c.closed then c.low * 2 ^ c.exponent ≤ q ∧ q ≤ c.high * 2 ^ c.exponent
  else c.low * 2 ^ c.exponent < q ∧ q < c.high * 2 ^ c.exponent

/-- The double lies between the ends of its cell. -/
structure IsProper (c : Cell) : Prop where
  low_lt : c.low < c.value
  lt_high : c.value < c.high

/-- The cell of a positive mantissa is proper. -/
lemma isProper_ofDouble {m : ℕ} (e : ℤ) (hm : 0 < m) : (ofDouble m e).IsProper := by
  constructor <;> simp only [ofDouble]
  · split_ifs <;> omega
  · omega

/-- The numbers of a cell are above its lower end. -/
lemma Contains.low_le {q : ℚ} (h : c.Contains q) : c.low * 2 ^ c.exponent ≤ q := by
  rw [Contains] at h
  split_ifs at h
  · exact h.1
  · exact h.1.le

/-- The cell of a double is measured in quarters of its last place. -/
@[simp] lemma exponent_ofDouble (m : ℕ) (e : ℤ) : (ofDouble m e).exponent = e - 2 := rfl

/-- The cell counts in quarters of the last place. -/
lemma mul_zpow_eq_units (x : ℚ) (e : ℤ) : x * 2 ^ e = 4 * x * 2 ^ (e - 2) := by
  rw [zpow_sub₀ (by norm_num)]
  norm_num
  ring

/-- The cell in units of the last place: half of one to each side, with the ends for an even mantissa. -/
lemma Contains.isNearestInt {m : ℕ} {e : ℤ} {x : ℚ} (hm : 0 < m)
    (h : (ofDouble m e).Contains (x * 2 ^ e)) : IsNearestInt x m := by
  have hlow : (4 * m - 2 : ℚ) ≤ (ofDouble m e).low := by
    have hnat : 4 * m ≤ (ofDouble m e).low + 2 := by
      simp only [ofDouble]
      split_ifs <;> omega
    have : (4 * m : ℚ) ≤ (ofDouble m e).low + 2 := by exact_mod_cast hnat
    linarith
  have hhigh : ((ofDouble m e).high : ℚ) = 4 * m + 2 := by
    simp only [ofDouble]
    push_cast
    ring
  have hpos : (0 : ℚ) < 2 ^ (e - 2) := by positivity
  rw [Contains, mul_zpow_eq_units x e, exponent_ofDouble, hhigh] at h
  split_ifs at h with hc
  · -- The ends belong to the cell of an even mantissa.
    have heven : (m : ℤ) % 2 = 0 := by
      have : m % 2 = 0 := of_decide_eq_true hc
      omega
    rw [mul_le_mul_iff_left₀ hpos, mul_le_mul_iff_left₀ hpos] at h
    have habs : |x - (m : ℤ)| ≤ 1 / 2 := by
      rw [abs_le]
      push_cast
      constructor <;> linarith
    exact habs.lt_or_eq.imp_right fun heq => ⟨heq, heven⟩
  · rw [mul_lt_mul_iff_left₀ hpos, mul_lt_mul_iff_left₀ hpos] at h
    left
    rw [abs_lt]
    push_cast
    constructor <;> linarith

/-- Below a power of two, only a quarter of the last place above it belongs to its cell. -/
lemma Contains.sub_quarter_le {m : ℕ} {e : ℤ} {x : ℚ} (hm : m = 2 ^ 52) (he : -1074 < e)
    (h : (ofDouble m e).Contains (x * 2 ^ e)) : m - 1 / 4 ≤ x := by
  have hcond : m = 1 <<< 52 ∧ -1074 < e := ⟨hm, he⟩
  have hlow : ((ofDouble m e).low : ℚ) = 4 * m - 1 := by
    simp only [ofDouble, if_pos hcond]
    rw [Nat.cast_sub (by omega)]
    push_cast
    ring
  have hle := h.low_le
  rw [mul_zpow_eq_units x e, exponent_ofDouble, hlow, mul_le_mul_iff_left₀ (by positivity)] at hle
  linarith

/-- The numbers of the cell are those that round to the double. -/
theorem nearest_of_contains {s : Sign} {m : ℕ} {e : ℤ} {hm : 0 < m} (hc : Canonical (.finite s m e hm))
    {q : ℚ} (h : (ofDouble m e).Contains q) : Binary64.nearest q = m * 2 ^ e := by
  obtain ⟨x, rfl⟩ : ∃ x, q = x * 2 ^ e := ⟨q / 2 ^ e, (div_mul_cancel₀ q (by positivity)).symm⟩
  obtain ⟨hu, hl, hbits⟩ := hc
  have hint := h.isNearestInt hm
  have habs := abs_le.mp hint.abs_sub_le
  have hm1 : (1 : ℚ) ≤ m := by exact_mod_cast hm
  have hm53 : (m : ℚ) + 1 ≤ 2 ^ 53 := by exact_mod_cast hu
  push_cast at habs
  by_cases hx : e = -1074 ∨ 2 ^ 52 ≤ x
  · exact nearest_mul_two_zpow_of_isNearestInt hl (by linarith) (by linarith) hx hint
  · -- Only a power of two has numbers in its cell that have a smaller last place.
    rw [not_or, not_le] at hx
    have hm52 : m = 2 ^ 52 := by
      have hlt : (m : ℚ) < (2 ^ 52 + 1 : ℕ) := by
        push_cast
        linarith
      have hlt' : m < 2 ^ 52 + 1 := by exact_mod_cast hlt
      have hge := hbits.resolve_right hx.1
      omega
    have hcast : (m : ℚ) = 2 ^ 52 := by exact_mod_cast hm52
    have hquarter := h.sub_quarter_le hm52 (by omega)
    rw [hcast] at hquarter ⊢
    exact nearest_mul_two_zpow_of_lt_power (by omega) hquarter hx.2

/-- The two scales of the comparison, as powers of ten and of two. -/
lemma scales_eq (c : Cell) (k : ℤ) : c.scales k =
    (10 ^ (-k).toNat * 2 ^ c.exponent.toNat, 10 ^ k.toNat * 2 ^ (-c.exponent).toNat) := by
  simp only [scales, Nat.shiftLeft_eq, Nat.pow_eq]

/-- Both scales are positive. -/
lemma scales_pos (c : Cell) (k : ℤ) : 0 < (c.scales k).1 ∧ 0 < (c.scales k).2 := by
  rw [scales_eq]
  constructor <;> positivity

/-- The multipliers bring the units of the cell and the grid to a common one. -/
lemma exists_scale (c : Cell) (k : ℤ) :
    ∃ g : ℚ, 0 < g ∧ (c.scales k).1 = g * 2 ^ c.exponent ∧ (c.scales k).2 = g * 10 ^ k := by
  have hsplit (z : ℚ) (h0 : z ≠ 0) (j : ℤ) : z ^ (-j).toNat * z ^ j = z ^ j.toNat := by
    rw [← zpow_natCast, ← zpow_natCast, ← zpow_add₀ h0]
    congr 1
    omega
  refine ⟨10 ^ (-k).toNat * 2 ^ (-c.exponent).toNat, by positivity, ?_, ?_⟩
  · rw [mul_assoc, hsplit 2 (by norm_num)]
    rw [scales_eq]
    push_cast
    rfl
  · rw [mul_right_comm, hsplit 10 (by norm_num)]
    rw [scales_eq]
    push_cast
    rfl

/-- Membership in the cell, in the integers that the search compares. -/
lemma contains_mul_ten_zpow (c : Cell) (k : ℤ) (d : ℕ) : c.Contains (d * 10 ^ k) ↔
    if c.closed then
      c.low * (c.scales k).1 ≤ d * (c.scales k).2 ∧ d * (c.scales k).2 ≤ c.high * (c.scales k).1
    else c.low * (c.scales k).1 < d * (c.scales k).2 ∧ d * (c.scales k).2 < c.high * (c.scales k).1 := by
  obtain ⟨g, hg, h2, h10⟩ := c.exists_scale k
  have hgrid : (((d * (c.scales k).2 : ℕ) : ℚ)) = g * (d * 10 ^ k) := by
    push_cast
    rw [h10]
    ring
  have hcell (n : ℕ) : (((n * (c.scales k).1 : ℕ) : ℚ)) = g * (n * 2 ^ c.exponent) := by
    push_cast
    rw [h2]
    ring
  simp only [← Nat.cast_le (α := ℚ), ← Nat.cast_lt (α := ℚ), hgrid, hcell, mul_le_mul_iff_right₀ hg,
    mul_lt_mul_iff_right₀ hg]
  rfl

/-- What is found on a grid lies in the cell. -/
lemma contains_of_nearest? (hc : c.IsProper) {k : ℤ} {d : ℕ} (h : c.nearest? k = some d) :
    c.Contains (d * 10 ^ k) := by
  rw [contains_mul_ten_zpow]
  obtain ⟨ha, hu⟩ := c.scales_pos k
  unfold nearest? at h
  generalize c.scales k = p at h ha hu ⊢
  obtain ⟨a, u⟩ := p
  simp only at h ha hu ⊢
  -- The double lies between its two neighbours, and strictly between the ends of its cell.
  have hbelow : c.value * a / u * u ≤ c.value * a := Nat.div_mul_le_self _ _
  have habove : c.value * a < (c.value * a / u + 1) * u :=
    Nat.lt_mul_of_div_lt (Nat.lt_succ_self _) hu
  have hlow : c.low * a < c.value * a := Nat.mul_lt_mul_of_pos_right hc.low_lt ha
  have hhigh : c.value * a < c.high * a := Nat.mul_lt_mul_of_pos_right hc.lt_high ha
  generalize c.value * a / u = v at h hbelow habove
  split_ifs at h ⊢ with hclosed hfirst hsecond hfirst hsecond <;>
    obtain rfl := Option.some.inj h
  · exact ⟨hfirst.1, by omega⟩
  · exact ⟨by omega, hsecond⟩
  · exact ⟨hfirst.1, by omega⟩
  · exact ⟨by omega, hsecond⟩

/-- On a grid that is not coarser than the units of the cell, something is found. -/
lemma exists_nearest? (hc : c.IsProper) {k : ℤ} (h : (10 : ℚ) ^ k ≤ 2 ^ c.exponent) :
    ∃ d, c.nearest? k = some d := by
  have hle : (c.scales k).2 ≤ (c.scales k).1 := by
    obtain ⟨g, hg, h2, h10⟩ := c.exists_scale k
    have hq : ((c.scales k).2 : ℚ) ≤ (c.scales k).1 := by
      rw [h2, h10]
      gcongr
    exact_mod_cast hq
  obtain ⟨ha, hu⟩ := c.scales_pos k
  unfold nearest?
  generalize c.scales k = p at hle ha hu ⊢
  obtain ⟨a, u⟩ := p
  simp only at hle ha hu ⊢
  -- The neighbour below is less than a unit away, and the cell reaches that far.
  have habove : c.value * a < (c.value * a / u + 1) * u :=
    Nat.lt_mul_of_div_lt (Nat.lt_succ_self _) hu
  have hlow : (c.low + 1) * a ≤ c.value * a := Nat.mul_le_mul_right a hc.low_lt
  generalize c.value * a / u = v at habove ⊢
  have hfirst : c.low * a < v * u := by
    rw [add_mul, one_mul] at habove hlow
    omega
  have hfirst' : c.low * a ≤ v * u := hfirst.le
  by_cases hclosed : c.closed <;>
    simp only [hclosed, hfirst, hfirst', if_true, true_and, Bool.false_eq_true, if_false]
  all_goals
    split_ifs with h1 h2
    · exact ⟨_, rfl⟩
    · exact ⟨_, rfl⟩
    · exact absurd (.inr h2) h1

/-- The search ends in the cell if the last of its grids is fine enough. -/
lemma contains_search (hc : c.IsProper) {fuel : ℕ} {k : ℤ}
    (h : (10 : ℚ) ^ (k - fuel) ≤ 2 ^ c.exponent) : c.Contains (c.search (fuel + 1) k).toRat := by
  induction fuel generalizing k with
  | zero =>
    obtain ⟨d, hd⟩ := exists_nearest? hc (by simpa using h)
    rw [search, hd]
    exact contains_of_nearest? hc hd
  | succ fuel ih =>
    rw [search]
    cases hd : c.nearest? k with
    | some d => exact contains_of_nearest? hc hd
    | none =>
      have hk : k - 1 - fuel = k - (fuel + 1 : ℕ) := by
        push_cast
        ring
      exact ih (by rw [hk]; exact h)

end Cell

/-- A power of ten compared with a power of two, with little more than the ratio of the exponents. -/
lemma ten_zpow_le {j i : ℤ} (h : 0 ≤ j → 10 * j ≤ 3 * i) (h' : j ≤ 0 → 33 * j ≤ 10 * i) :
    (10 : ℚ) ^ j ≤ 2 ^ i := by
  rcases le_total 0 j with hj | hj
  · -- A thousand is less than ten bits.
    obtain ⟨n, rfl⟩ := Int.eq_ofNat_of_zero_le hj
    have hcube : ((10 : ℚ) ^ (n : ℤ)) ^ 3 ≤ (2 ^ i) ^ 3 := by
      calc ((10 : ℚ) ^ (n : ℤ)) ^ 3 = (10 ^ 3) ^ n := by rw [zpow_natCast, ← pow_mul, ← pow_mul, mul_comm]
        _ ≤ (2 ^ 10) ^ n := by gcongr; norm_num
        _ = 2 ^ (10 * n : ℤ) := by rw [← pow_mul]; norm_cast
        _ ≤ 2 ^ (i * 3) := zpow_le_zpow_right₀ (by norm_num) (by have := h hj; omega)
        _ = (2 ^ i) ^ 3 := by rw [zpow_mul]; norm_cast
    exact le_of_pow_le_pow_left₀ (by norm_num) (by positivity) hcube
  · -- Ten decimal places are more than 33 bits.
    obtain ⟨n, rfl⟩ : ∃ n : ℕ, j = -n := ⟨(-j).toNat, by omega⟩
    have hten : ((10 : ℚ) ^ (-n : ℤ)) ^ 10 ≤ (2 ^ i) ^ 10 := by
      calc ((10 : ℚ) ^ (-n : ℤ)) ^ 10 = ((10 ^ 10) ^ n)⁻¹ := by
            rw [zpow_neg, zpow_natCast, inv_pow, ← pow_mul, ← pow_mul, mul_comm]
        _ ≤ ((2 ^ 33) ^ n)⁻¹ := by gcongr; norm_num
        _ = 2 ^ (33 * -n : ℤ) := by rw [← pow_mul, mul_neg, zpow_neg]; norm_cast
        _ ≤ 2 ^ (i * 10) := zpow_le_zpow_right₀ (by norm_num) (by have := h' hj; omega)
        _ = (2 ^ i) ^ 10 := by rw [zpow_mul]; norm_cast
    exact le_of_pow_le_pow_left₀ (by norm_num) (by positivity) hten

/-- The shortest decimal of a double is rounded to it. -/
theorem round_shortest {s : Sign} {m : ℕ} {e : ℤ} {hm : 0 < m} (h : Value.IsDouble (.finite s m e hm)) :
    Value.round (shortest m e).toRat = .finite (m * 2 ^ e) := by
  obtain ⟨hc, hr⟩ := h
  have hlog : m.log2 < 53 := (Nat.log2_lt hm.ne').mpr hc.1
  have hmin := hc.2.1
  have hr' : e ≤ 971 := hr
  have hgrid : (10 : ℚ) ^ (((m.log2 : ℤ) + 1 + e) * 1233 / 4096 + 2 - (23 : ℕ)) ≤
      2 ^ (Cell.ofDouble m e).exponent := by
    rw [Cell.exponent_ofDouble]
    apply ten_zpow_le <;> intro _ <;> omega
  have hn := Cell.nearest_of_contains hc (Cell.contains_search (Cell.isProper_ofDouble e hm) hgrid)
  have hlimit := (Value.inRange_iff hc).mp hr
  rw [Value.round, shortest, hn, abs_of_pos (by positivity), if_pos hlimit]

end Decimal
end PlanarNewton
