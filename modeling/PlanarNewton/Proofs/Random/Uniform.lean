import PlanarNewton.Config
import PlanarNewton.Random.Generator
import PlanarNewton.Proofs.Binary64.Zero

/-!
# Uniform numbers

The generator maps 64 random bits to `u * (high - low) + low` with a fraction `u` of 52 bits, and every
one of the three operations rounds. Main statement: `uniform_mem` (the number lies between the bounds
all the same, so it is finite) and `IsSide.uniform_ne_negZero` (it is no negative zero). The width may
be rounded up, but then `u` takes at least one last place off it.
-/

namespace PlanarNewton

namespace Binary64

/-- A difference whose last place is the least one is exact. -/
lemma nearest_sub_of_lastPlace {p q : ℚ} (hp : Representable p) (hq : Representable q)
    (h : lastPlace (p - q) = -1074) : nearest (p - q) = p - q := by
  obtain ⟨m, hm⟩ := exists_mul_two_zpow hp
  obtain ⟨n, hn⟩ := exists_mul_two_zpow hq
  apply nearest_of_eq_mul (n := m - n)
  rw [h, hm, hn, Int.cast_sub, sub_mul]

/-- A width rounded up and then multiplied by a fraction below one is no wider than before. -/
lemma nearest_stretch_le {p q u : ℚ} (hp : Representable p) (hq : Representable q) (hpq : p < q)
    (hu : u ≤ 1 - 2 ^ (-52 : ℤ)) : nearest (u * nearest (q - p)) ≤ q - p := by
  have hd : 0 < q - p := sub_pos.mpr hpq
  have hs := nearest_nonneg hd.le
  have hu1 : u ≤ 1 := hu.trans (by norm_num)
  rcases le_or_gt (nearest (q - p)) (q - p) with hle | hgt
  · exact (nearest_le_of_le (representable_nearest _) (mul_le_of_le_one_left hs hu1)).trans hle
  · -- The width was rounded up, so it is normal and `u` takes a whole last place off it.
    set t := lastPlace (q - p) with ht
    have hmin : -1074 < t := by
      refine lt_of_le_of_ne (neg_1074_le_lastPlace _) fun h => hgt.ne' ?_
      exact nearest_sub_of_lastPlace hq hp h.symm
    have hlow : (2 : ℚ) ^ (t + 52) ≤ nearest (q - p) := two_zpow_le_nearest hd hmin
    have hpos : (0 : ℚ) < 2 ^ t := by positivity
    have hR : nearest (q - p) - 2 ^ t < q - p := by
      have h := abs_le.mp (abs_sub_nearest_le (q - p))
      linarith
    have hrep : Representable (nearest (q - p) - 2 ^ t) := representable_nearest_sub hlow
    have hmul : u * nearest (q - p) ≤ nearest (q - p) - 2 ^ t := by
      have h2 : (2 : ℚ) ^ (-52 : ℤ) * 2 ^ (t + 52) = 2 ^ t := by
        rw [← zpow_add₀ (by norm_num)]
        congr 1
        omega
      calc u * nearest (q - p) ≤ (1 - 2 ^ (-52 : ℤ)) * nearest (q - p) := by gcongr
        _ = nearest (q - p) - 2 ^ (-52 : ℤ) * nearest (q - p) := by ring
        _ ≤ nearest (q - p) - 2 ^ (-52 : ℤ) * 2 ^ (t + 52) := by gcongr
        _ = nearest (q - p) - 2 ^ t := by rw [h2]
    exact (nearest_le_of_le hrep hmul).trans hR.le

end Binary64

open Float.Model Binary64 Binary64.Value

/-- The bits of the sampler's double, as a number: a fixed exponent above the upper 52 random
bits. -/
lemma toNat_shift_or (u : UInt64) :
    ((u >>> 12) ||| 0x3FF0000000000000).toNat = 1023 * 2 ^ 52 + u.toNat / 2 ^ 12 := by
  have h : u.toNat / 2 ^ 12 < 2 ^ 52 := by
    have := u.toNat_lt
    omega
  have h1 := Nat.shiftLeft_add_eq_or_of_lt h 1023
  rw [Nat.shiftLeft_eq] at h1
  rw [h1, UInt64.toNat_or, UInt64.toNat_shiftRight, Nat.shiftRight_eq_div_pow, Nat.or_comm]
  rfl

/-- The bits of the sampler's double are those of a mantissa between 1 and 2. -/
lemma bits_eq_packComponents (u : UInt64) :
    ((u >>> 12) ||| 0x3FF0000000000000).toBitVec =
      UnpackedFloat.packComponents Format.binary64 .positive
        (BitVec.ofNat 11 ((-52 : ℤ) + 1075).toNat)
        (BitVec.ofNat 52 (2 ^ 52 + u.toNat / 2 ^ 12)) := by
  have h : u.toNat / 2 ^ 12 < 2 ^ 52 := by
    have := u.toNat_lt
    omega
  apply BitVec.eq_of_toNat_eq
  have h1 := Nat.shiftLeft_add_eq_or_of_lt h 1023
  have h2 : (2 ^ 52 + u.toNat / 2 ^ 12) % 2 ^ 52 = u.toNat / 2 ^ 12 := by omega
  rw [Nat.shiftLeft_eq] at h1
  rw [UInt64.toNat_toBitVec, toNat_shift_or, UnpackedFloat.packComponents, BitVec.toNat_append,
    BitVec.toNat_append, BitVec.toNat_ofNat, BitVec.toNat_ofNat, h2, h1]
  rfl

/-- The value of one. -/
lemma value_one : value 1.0 = .finite 1 := by
  have h : (1.0 : Float).toModel.unpack = .finite .positive (2 ^ 52) (-52) (by norm_num) := by
    rfl
  rw [value, h]
  show Value.finite (((2 ^ 52 : ℕ) : ℚ) * 2 ^ (-52 : ℤ)) = _
  norm_num

/-- The sampler takes one from a double between 1 and 2 without rounding. -/
lemma value_unitInterval (u : UInt64) :
    value (unitInterval u) = .finite ((u.toNat / 2 ^ 12 : ℕ) * 2 ^ (-52 : ℤ)) := by
  have h : u.toNat / 2 ^ 12 < 2 ^ 52 := by
    have := u.toNat_lt
    omega
  set k := u.toNat / 2 ^ 12 with hk
  have hbits : value (Float.ofBits ((u >>> 12) ||| 0x3FF0000000000000)) =
      .finite (((2 ^ 52 + k : ℕ) : ℚ) * 2 ^ (-52 : ℤ)) := by
    have hd : IsDouble (.finite .positive (2 ^ 52 + k) (-52) (by omega)) := by
      refine ⟨⟨by omega, by norm_num, .inl (by omega)⟩, by show _ ≤ _; norm_num⟩
    have hu : UnpackedFloat.unpack Format.binary64 ((u >>> 12) ||| 0x3FF0000000000000).toBitVec =
        .finite .positive (2 ^ 52 + k) (-52) (by omega) := by
      rw [bits_eq_packComponents, unpack_normal _ _ (by omega) (by omega) (by omega) (by omega)]
    show value (.ofModel (.pack (UnpackedFloat.unpack _ _))) = _
    rw [hu, value_pack_of_isDouble hd]
    rfl
  rw [unitInterval, value_sub, hbits, value_one]
  show Value.round _ = _
  have hq : ((2 ^ 52 + k : ℕ) : ℚ) * 2 ^ (-52 : ℤ) + -1 = ((k : ℤ) : ℚ) * 2 ^ (-52 : ℤ) := by
    push_cast
    rw [add_mul]
    norm_num
  have hle : ((k : ℤ) : ℚ) * 2 ^ (-52 : ℤ) ≤ 1 := by
    have hk' : ((k : ℤ) : ℚ) ≤ 2 ^ 52 := by exact_mod_cast h.le
    calc ((k : ℤ) : ℚ) * 2 ^ (-52 : ℤ) ≤ 2 ^ 52 * 2 ^ (-52 : ℤ) := by gcongr
      _ = 1 := by norm_num
  rw [hq, round_of_representable ⟨k, -52, by rw [abs_lt]; constructor <;> omega, by norm_num, rfl⟩]
  · rfl
  · rw [abs_of_nonneg (by positivity)]
    exact hle.trans_lt one_lt_limit

/-- The fraction of 64 random bits is below one by at least its last place. -/
lemma exists_unitInterval (u : UInt64) :
    ∃ f, value (unitInterval u) = .finite f ∧ 0 ≤ f ∧ f ≤ 1 - 2 ^ (-52 : ℤ) := by
  refine ⟨_, value_unitInterval u, by positivity, ?_⟩
  have h : u.toNat / 2 ^ 12 + 1 ≤ 2 ^ 52 := by
    have := u.toNat_lt
    omega
  have hq : ((u.toNat / 2 ^ 12 : ℕ) : ℚ) + 1 ≤ 2 ^ 52 := by exact_mod_cast h
  calc ((u.toNat / 2 ^ 12 : ℕ) : ℚ) * 2 ^ (-52 : ℤ) ≤ (2 ^ 52 - 1) * 2 ^ (-52 : ℤ) := by
        gcongr
        linarith
    _ = 1 - 2 ^ (-52 : ℤ) := by norm_num

/-- A uniform number lies between its bounds, whatever the roundings. -/
theorem uniform_mem {low high : Float} {p q : ℚ} (hp : value low = .finite p)
    (hq : value high = .finite q) (h : p < q) (hw : (high - low).isFinite = true) (u : UInt64) :
    ∃ r, value (uniform low high u) = .finite r ∧ p ≤ r ∧ r ≤ q := by
  obtain ⟨hrp, hlp⟩ := finite_spec hp
  obtain ⟨hrq, hlq⟩ := finite_spec hq
  obtain ⟨s, hs⟩ := exists_finite hw
  obtain ⟨hrs, hls⟩ := finite_spec hs
  obtain ⟨f, hf, hf0, hf1⟩ := exists_unitInterval u
  -- The width is rounded, then the product, then the sum; none of the three overflows.
  have hsn : s = nearest (q - p) := by
    rw [value_sub, hp, hq] at hs
    exact (eq_nearest_of_round hs).trans (congrArg nearest (sub_eq_add_neg q p).symm)
  have hs0 : 0 ≤ s := hsn ▸ nearest_nonneg (sub_pos.mpr h).le
  have hfs : f * s ≤ s := mul_le_of_le_one_left hs0 (hf1.trans (by norm_num))
  obtain ⟨hm, hm0, -⟩ :=
    round_of_mem representable_zero hrs abs_zero_lt_limit hls (mul_nonneg hf0 hs0) hfs
  have hle : nearest (f * s) ≤ q - p := hsn ▸ nearest_stretch_le hrp hrq h hf1
  obtain ⟨ha, ha1, ha2⟩ := round_of_mem (q := nearest (f * s) + p) hrp hrq hlp hlq
    (by linarith) (by linarith)
  refine ⟨_, ?_, ha1, ha2⟩
  rw [uniform, value_add, value_mul, hf, hs, hp]
  show (Value.round (f * s)).add _ = _
  rw [hm]
  exact ha

/-- What the check of a search range makes sure of along one axis. -/
structure IsSide (low high : Float) : Prop where
  low_finite : low.isFinite = true
  high_finite : high.isFinite = true
  width_finite : (high - low).isFinite = true
  lt : ¬low ≥ high

/-- The ends of a side are numbers in their order. -/
lemma IsSide.exists_values {low high : Float} (h : IsSide low high) :
    ∃ p q, value low = .finite p ∧ value high = .finite q ∧ p < q := by
  obtain ⟨p, hp⟩ := exists_finite h.low_finite
  obtain ⟨q, hq⟩ := exists_finite h.high_finite
  have hlt := h.lt
  rw [ge_iff_le, le_iff, hp, hq, Value.finite_le] at hlt
  exact ⟨p, q, hp, hq, not_le.mp hlt⟩

/-- The lower end of a side is less than the upper one. -/
lemma IsSide.low_lt_high {low high : Float} (h : IsSide low high) : low < high :=
  (float_not_le h.high_finite h.low_finite).mp h.lt

/-- A number that is drawn for a side is finite. -/
lemma IsSide.isFinite_uniform {low high : Float} (h : IsSide low high) (u : UInt64) :
    (uniform low high u).isFinite = true := by
  obtain ⟨p, q, hp, hq, hpq⟩ := h.exists_values
  obtain ⟨r, hr, -⟩ := uniform_mem hp hq hpq h.width_finite u
  exact isFinite_of_value hr

/-- The sampler's number of the unit interval is zero or positive, and no negative zero. -/
lemma isPlus_unitInterval (u : UInt64) : IsPlus (unitInterval u) := by
  obtain ⟨f, hf, h0, -⟩ := exists_unitInterval u
  refine ⟨⟨f, hf, h0⟩, fun h => ?_⟩
  rw [unitInterval, float_sub_eq] at h
  exact absurd (add_eq_negZero h).2 (by decide)

/-- The width of a side is zero or positive, and no negative zero. -/
lemma IsSide.isPlus_width {low high : Float} (h : IsSide low high) : IsPlus (high - low) := by
  obtain ⟨p, q, hp, hq, hpq⟩ := h.exists_values
  obtain ⟨s, hs⟩ := exists_finite h.width_finite
  refine ⟨⟨s, hs, ?_⟩, fun h0 => ?_⟩
  · rw [value_sub, hp, hq] at hs
    rw [eq_nearest_of_round hs]
    exact nearest_nonneg (by linarith)
  · rw [float_sub_eq] at h0
    obtain ⟨hh, hl⟩ := add_eq_negZero h0
    have hv := congrArg value hl
    rw [value_neg, hp] at hv
    rw [hh] at hq
    have hp0 : -p = 0 := Value.finite.inj hv
    have hq0 : 0 = q := Value.finite.inj hq
    linarith

/-- A uniform number from a checked side is no negative zero. -/
theorem IsSide.uniform_ne_negZero {low high : Float} (h : IsSide low high) (u : UInt64) :
    uniform low high u ≠ -0.0 := fun h0 =>
  mul_ne_negZero (isPlus_unitInterval u) h.isPlus_width (add_eq_negZero h0).1

/-- The sides of an accepted search range are proper. -/
lemma Config.isSide_of_checkSearchRange {lower upper : Vec2 Float}
    (h : checkSearchRange lower upper = .ok ()) :
    IsSide lower.x upper.x ∧ IsSide lower.y upper.y := by
  unfold checkSearchRange at h
  split at h
  · cases h
  · rename_i hc
    simp only [Bool.or_eq_true, Bool.not_eq_true', decide_eq_true_eq, not_or, Bool.not_eq_false,
      Vec2.isFinite, Bool.and_eq_true] at hc
    obtain ⟨⟨⟨⟨hl, hu⟩, hw⟩, hx⟩, hy⟩ := hc
    exact ⟨⟨hl.1, hu.1, hw.1, hx⟩, ⟨hl.2, hu.2, hw.2, hy⟩⟩

/-- Every point drawn from an accepted search range is finite. -/
theorem Generator.isFinite_point {lower upper : Vec2 Float}
    (h : Config.checkSearchRange lower upper = .ok ()) (g : Generator) :
    (g.point lower upper).1.isFinite = true := by
  obtain ⟨hx, hy⟩ := Config.isSide_of_checkSearchRange h
  exact Bool.and_eq_true_iff.mpr ⟨hx.isFinite_uniform _, hy.isFinite_uniform _⟩

/-- No point drawn from an accepted search range has a negative zero. -/
theorem Generator.point_ne_negZero {lower upper : Vec2 Float}
    (h : Config.checkSearchRange lower upper = .ok ()) (g : Generator) :
    (g.point lower upper).1.x ≠ -0.0 ∧ (g.point lower upper).1.y ≠ -0.0 := by
  obtain ⟨hx, hy⟩ := Config.isSide_of_checkSearchRange h
  exact ⟨hx.uniform_ne_negZero _, hy.uniform_ne_negZero _⟩

end PlanarNewton
