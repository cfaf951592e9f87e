import PlanarNewton.Sampling
import PlanarNewton.Proofs.Binary64.Integer
import PlanarNewton.Proofs.Binary64.Scaling
import PlanarNewton.Proofs.Plane.Determinant

/-!
# The points of a line

When there is a line between two ends, and where its points lie. The points run up from the start
(`Line.Runs.along_mono`), but the quotient, the products and the sums are rounded, and the last point
can come to lie beyond the end: up to `1.7` in steps of `0.1`, the last point is the next double after
`1.7` (`last_beyond_stop`). It never is far beyond (`Line.Runs.le_of_value_along`), on lines of usual
lengths no other point is (`Line.Runs.along_le_stop_of_lt`), and none is where the ends and the step are
whole multiples of one unit (`Line.Runs.along_le_stop_of_onGrid`). Only where the ends are nearly as
large as doubles can be, points can overflow (`Line.Runs.isFinite_along`). An infinite step is accepted
too; its only point is NaN. Main statements: `line?_eq_some_iff` and `line?_points`.
-/

namespace PlanarNewton

/-- The coordinate of a point along an axis. -/
def Axis.coordinate {α : Type} (axis : Axis) (p : Vec2 α) : α :=
  match axis with
  | .x => p.x
  | .y => p.y

/-- The coordinate of a point across an axis. -/
def Axis.otherCoordinate {α : Type} (axis : Axis) (p : Vec2 α) : α :=
  match axis with
  | .x => p.y
  | .y => p.x

namespace Sampling
open Binary64 Binary64.Value

variable {axis : Axis} {start stop step fixed : Float}

/-- The value of the first count that is too large. -/
lemma value_countLimit : value countLimit = .finite (2 ^ 64) := by
  decide +kernel

/-- There is a line between two ends, and its last point has the number `n`. -/
structure IsCounted (start stop step : Float) (n : ℕ) : Prop where
  step_pos : step > 0.0
  start_finite : start.isFinite = true
  stop_finite : stop.isFinite = true
  le : start ≤ stop
  count : value (floor ((stop - start) / step)) = .finite n
  count_lt : n < 2 ^ 64

/-- A step above zero is a positive number or infinite. -/
lemma step_cases (h : step > 0.0) :
    (∃ q, value step = .finite q ∧ 0 < q) ∨ value step = .infinite .positive := by
  rw [gt_iff_lt, lt_iff, value_zero] at h
  cases hv : value step with
  | nan =>
    rw [hv] at h
    cases h
  | infinite s =>
    cases s with
    | negative =>
      rw [hv] at h
      cases h
    | positive => exact .inr rfl
  | finite q =>
    rw [hv, finite_lt] at h
    exact .inl ⟨q, rfl, h⟩

section Quotient
variable {a e q : ℚ}

/-- The computed width is the exact one, rounded. -/
lemma value_width (ha : value start = .finite a) (he : value stop = .finite e) :
    value (stop - start) = Value.round (e - a) := by
  rw [value_sub, he, ha]
  exact congrArg Value.round (sub_eq_add_neg e a).symm

/-- The computed number of steps comes from the exact one by two roundings. -/
lemma quotient_eq {h : ℚ} (ha : value start = .finite a) (he : value stop = .finite e)
    (hh : value step = .finite h) (h0 : 0 < h) (hq : value ((stop - start) / step) = .finite q) :
    value (stop - start) = .finite (nearest (e - a)) ∧ q = nearest (nearest (e - a) / h) := by
  have hne : value step ≠ .finite 0 := fun h1 => h0.ne' (Value.finite.inj (hh.symm.trans h1))
  rw [value_div hne, hh] at hq
  obtain ⟨w, hw⟩ := exists_finite_of_div hq
  rw [hw] at hq
  change (if h = 0 then Value.nan else Value.round (w / h)) = _ at hq
  rw [if_neg h0.ne'] at hq
  have hwe : w = nearest (e - a) := eq_nearest_of_round ((value_width ha he).symm.trans hw)
  subst hwe
  exact ⟨hw, eq_nearest_of_round hq⟩

/-- Nothing but zero is a finite number divided by infinity, and infinity divided by it is NaN. -/
lemma quotient_eq_zero (hh : value step = .infinite .positive)
    (hq : value ((stop - start) / step) = .finite q) : q = 0 := by
  rw [value_div (by rw [hh]; exact nofun), hh] at hq
  cases hw : value (stop - start) with
  | nan =>
    rw [hw] at hq
    cases hq
  | infinite s =>
    rw [hw] at hq
    cases hq
  | finite w =>
    rw [hw] at hq
    cases hq
    rfl

/-- The quotient of a width and a step is not negative. -/
lemma quotient_nonneg (ha : value start = .finite a) (he : value stop = .finite e) (hae : a ≤ e)
    (hstep : step > 0.0) (hq : value ((stop - start) / step) = .finite q) : 0 ≤ q := by
  rcases step_cases hstep with ⟨h, hh, h0⟩ | hh
  · rw [(quotient_eq ha he hh h0 hq).2]
    have hw := nearest_nonneg (sub_nonneg.mpr hae)
    exact nearest_nonneg (by positivity)
  · exact (quotient_eq_zero hh hq).ge

end Quotient

/-- Between ordered finite ends, a finite count is a natural number. -/
lemma exists_count (hstep : step > 0.0) (hstart : start.isFinite = true)
    (hstop : stop.isFinite = true) (hle : start ≤ stop)
    (hcount : (floor ((stop - start) / step)).isFinite = true) :
    ∃ n : ℕ, value (floor ((stop - start) / step)) = .finite n := by
  obtain ⟨a, ha⟩ := exists_finite hstart
  obtain ⟨e, he⟩ := exists_finite hstop
  obtain ⟨c, hc⟩ := exists_finite hcount
  obtain ⟨q, hq⟩ := exists_finite_of_floor hc
  rw [le_iff, ha, he, finite_le] at hle
  have hq0 := quotient_nonneg ha he hle hstep hq
  refine ⟨⌊q⌋.toNat, ?_⟩
  have hcast : ((⌊q⌋.toNat : ℕ) : ℚ) = (⌊q⌋ : ℤ) := by
    exact_mod_cast congrArg (Int.cast : ℤ → ℚ) (Int.toNat_of_nonneg (Int.floor_nonneg.mpr hq0))
  rw [value_floor hq, hcast]

/-- The number of steps of a counted range is converted without a change. -/
lemma IsCounted.toUInt64_eq {n : ℕ} (h : IsCounted start stop step n) :
    (floor ((stop - start) / step)).toUInt64 = .ofNat n := by
  have hlt : (n : ℚ) < 2 ^ 64 := by exact_mod_cast h.count_lt
  apply UInt64.toNat_inj.mp
  rw [toNat_toUInt64 h.count (Nat.cast_nonneg n) hlt, Nat.floor_natCast]
  exact (Nat.mod_eq_of_lt h.count_lt).symm

/-- A counted range has fewer steps than the limit. -/
lemma IsCounted.not_ge_countLimit {n : ℕ} (h : IsCounted start stop step n) :
    ¬floor ((stop - start) / step) ≥ countLimit := by
  have hlt : (n : ℚ) < 2 ^ 64 := by exact_mod_cast h.count_lt
  rw [ge_iff_le, le_iff, value_countLimit, h.count, finite_le]
  exact not_le.mpr hlt

/-- There is a line where the step is positive, the ends are finite and in order, and the count fits. -/
theorem line?_eq_some_iff {l : Line} : line? axis start stop step fixed = some l ↔
    ∃ n, IsCounted start stop step n ∧ l = ⟨axis, start, step, fixed, .ofNat n⟩ := by
  constructor
  · intro hl
    simp only [line?] at hl
    split at hl
    · cases hl
    · rename_i hends
      split at hl
      · cases hl
      · rename_i hcount
        simp only [Bool.or_eq_true, Bool.not_eq_true', decide_eq_true_eq, decide_eq_false_iff_not,
          not_or, not_not, Bool.not_eq_false] at hends hcount
        obtain ⟨⟨⟨hstep, hstart⟩, hstop⟩, hle⟩ := hends
        have hle' : start ≤ stop := not_not.mp fun h => hle ((float_not_le hstart hstop).mp h)
        obtain ⟨n, hn⟩ := exists_count hstep hstart hstop hle' hcount.1
        have hlt : n < 2 ^ 64 := by
          have h := hcount.2
          rw [ge_iff_le, le_iff, value_countLimit, hn, finite_le, not_le] at h
          exact_mod_cast h
        have hc : IsCounted start stop step n := ⟨hstep, hstart, hstop, hle', hn, hlt⟩
        cases hl
        exact ⟨n, hc, by rw [hc.toUInt64_eq]⟩
  · rintro ⟨n, hn, rfl⟩
    have hle : ¬start > stop := fun h => (float_not_le hn.start_finite hn.stop_finite).mpr h hn.le
    have hends : (!decide (step > 0.0) || !start.isFinite || !stop.isFinite ||
        decide (start > stop)) = false := by
      simp only [hn.step_pos, hn.start_finite, hn.stop_finite, hle, decide_true, decide_false,
        Bool.not_true, Bool.or_self]
    have hcount : (!(floor ((stop - start) / step)).isFinite ||
        decide (floor ((stop - start) / step) ≥ countLimit)) = false := by
      simp only [isFinite_of_value hn.count, hn.not_ge_countLimit, decide_false, Bool.not_true,
        Bool.or_self]
    unfold line?
    simp only [hends, hcount, Bool.false_eq_true, if_false]
    rw [hn.toUInt64_eq]

/-- A whole number of units `2 ^ k`, with at most 52 bits. -/
def OnGrid (k : ℤ) (q : ℚ) : Prop :=
  ∃ z : ℤ, |z| < 2 ^ 52 ∧ q = z * 2 ^ k

/-- The line runs from `a` to `e` by steps of `h`, all of them finite. -/
structure Line.Runs (l : Line) (stop : Float) (a e h : ℚ) : Prop where
  start_eq : value l.start = .finite a
  stop_eq : value stop = .finite e
  step_eq : value l.step = .finite h
  step_pos : 0 < h
  le : a ≤ e
  width_lt : nearest (e - a) < limit
  last_eq : (l.last.toNat : ℤ) = ⌊nearest (nearest (e - a) / h)⌋
  last_representable : Representable l.last.toNat

section Runs
variable {l : Line} {a e h : ℚ}

/-- A line between two ends runs between their values if its step is finite. -/
lemma IsCounted.runs {n : ℕ} (hc : IsCounted start stop step n) (ha : value start = .finite a)
    (he : value stop = .finite e) (hh : value step = .finite h) :
    Line.Runs ⟨axis, start, step, fixed, .ofNat n⟩ stop a e h := by
  obtain ⟨q, hq⟩ := exists_finite_of_floor hc.count
  have hstep := hc.step_pos
  have hle := hc.le
  rw [gt_iff_lt, lt_iff, value_zero, hh, finite_lt] at hstep
  rw [le_iff, ha, he, finite_le] at hle
  obtain ⟨hw, hqw⟩ := quotient_eq ha he hh hstep hq
  have hn : (UInt64.ofNat n).toNat = n := Nat.mod_eq_of_lt hc.count_lt
  have hcount : (n : ℚ) = ⌊q⌋ := Value.finite.inj (hc.count.symm.trans (value_floor hq))
  refine ⟨ha, he, hh, hstep, hle, lt_of_abs_lt (finite_spec hw).2, ?_, ?_⟩
  · rw [hn, ← hqw]
    exact_mod_cast hcount
  · rw [hn]
    exact (finite_spec hc.count).1

namespace Line.Runs

/-- The number of steps exceeds the width by the rounding of the quotient only. -/
lemma last_mul_le (r : l.Runs stop a e h) :
    l.last.toNat * h ≤ nearest (e - a) * (1 + roundoff) := by
  have hpos := r.step_pos
  have hw : 0 ≤ nearest (e - a) := nearest_nonneg (sub_nonneg.mpr r.le)
  rcases Nat.eq_zero_or_pos l.last.toNat with h0 | h1
  · rw [h0, Nat.cast_zero, zero_mul]
    exact mul_nonneg hw (by norm_num [roundoff])
  · have hle : (l.last.toNat : ℚ) ≤ nearest (nearest (e - a) / h) := by
      have hfloor := Int.floor_le (nearest (nearest (e - a) / h))
      rwa [← r.last_eq, Int.cast_natCast] at hfloor
    have hone : (1 : ℚ) ≤ l.last.toNat := by exact_mod_cast h1
    -- So large a quotient has all its bits.
    have hlarge : ¬Underflows (nearest (e - a) / h) := by
      apply not_underflows_of_le
      rw [abs_of_nonneg (by positivity)]
      by_contra! hsmall
      have hnear := nearest_le_of_le (representable_two_zpow (by norm_num)) hsmall.le
      have hlt : (2 : ℚ) ^ (-1022 : ℤ) < 1 := zpow_lt_one_of_neg₀ (by norm_num) (by norm_num)
      linarith
    have hround := nearest_le_mul_one_add (by positivity) hlarge
    calc (l.last.toNat : ℚ) * h ≤ nearest (e - a) / h * (1 + roundoff) * h := by
          gcongr
          exact hle.trans hround
      _ = nearest (e - a) * (1 + roundoff) := by field_simp

/-- The computed width exceeds the exact one by a rounding error at most. -/
lemma width_le (r : l.Runs stop a e h) : nearest (e - a) ≤ (e - a) * (1 + roundoff) :=
  nearest_le_mul_one_add (sub_nonneg.mpr r.le)
    (not_underflows_sub (finite_spec r.stop_eq).1 (finite_spec r.start_eq).1)

/-- All steps together exceed the exact width by two rounding errors at most. -/
lemma last_mul_le_width (r : l.Runs stop a e h) :
    l.last.toNat * h ≤ (e - a) * (1 + roundoff) ^ 2 := by
  have hroundoff : (0 : ℚ) ≤ 1 + roundoff := by norm_num [roundoff]
  calc l.last.toNat * h ≤ nearest (e - a) * (1 + roundoff) := r.last_mul_le
    _ ≤ (e - a) * (1 + roundoff) * (1 + roundoff) := mul_le_mul_of_nonneg_right r.width_le hroundoff
    _ = (e - a) * (1 + roundoff) ^ 2 := by ring

/-- A point is the start and a product, each rounded. -/
lemma value_along (r : l.Runs stop a e h) (i : UInt64) :
    value (l.along i) = (finite a).add (Value.round (nearest i.toNat * h)) := by
  rw [along, value_add, value_mul, value_toFloat, r.start_eq, r.step_eq]
  rfl

/-- The first sample is the start of the line. -/
lemma value_along_zero (r : l.Runs stop a e h) : value (l.along 0) = .finite a := by
  obtain ⟨hrep, hlimit⟩ := finite_spec r.start_eq
  rw [r.value_along, UInt64.toNat_zero, Nat.cast_zero, nearest_zero, zero_mul, round_zero]
  show Value.round (a + 0) = _
  rw [add_zero, round_of_representable hrep hlimit]

/-- Later samples are not before earlier ones. -/
lemma along_mono (r : l.Runs stop a e h) {i j : UInt64} (hij : i ≤ j) :
    l.along i ≤ l.along j := by
  have hnat : (i.toNat : ℚ) ≤ j.toNat := by exact_mod_cast UInt64.le_iff_toNat_le.mp hij
  have hpos := r.step_pos
  have hmono := nearest_mono hnat
  rw [le_iff, r.value_along, r.value_along]
  apply finite_add_mono
  apply round_mono
  gcongr

/-- The computed distance of a sample from the start is not negative. -/
lemma product_nonneg (r : l.Runs stop a e h) (i : UInt64) :
    0 ≤ nearest (nearest i.toNat * h) := by
  have hi := nearest_nonneg (Nat.cast_nonneg (α := ℚ) i.toNat)
  have hpos := r.step_pos
  exact nearest_nonneg (by positivity)

/-- The distance of a sample from the start does not underflow. -/
lemma not_underflows_index_mul (r : l.Runs stop a e h) (i : ℕ) : ¬Underflows (i * h) := by
  have h1 := not_underflows_intCast_mul i (finite_spec r.step_eq).1
  rwa [Int.cast_natCast] at h1

/-- A product is larger than the width by three roundings at most. -/
lemma product_le (r : l.Runs stop a e h) {i : UInt64} (hi : i ≤ l.last) :
    nearest (nearest i.toNat * h) ≤ (e - a) + (e - a) / 2 ^ 51 := by
  have hpos := r.step_pos
  have hwidth := sub_nonneg.mpr r.le
  have hnat : (i.toNat : ℚ) ≤ l.last.toNat := by exact_mod_cast UInt64.le_iff_toNat_le.mp hi
  have hindex : nearest i.toNat ≤ l.last.toNat := nearest_le_of_le r.last_representable hnat
  have hexact := r.not_underflows_index_mul l.last.toNat
  have hroundoff : (0 : ℚ) ≤ 1 + roundoff := by norm_num [roundoff]
  calc nearest (nearest i.toNat * h) ≤ nearest (l.last.toNat * h) := nearest_mono (by gcongr)
    _ ≤ l.last.toNat * h * (1 + roundoff) := nearest_le_mul_one_add (by positivity) hexact
    _ ≤ (e - a) * (1 + roundoff) ^ 2 * (1 + roundoff) :=
      mul_le_mul_of_nonneg_right r.last_mul_le_width hroundoff
    _ = (e - a) * (1 + roundoff) ^ 3 := by ring
    _ ≤ (e - a) * (1 + 1 / 2 ^ 51) := by
      gcongr
      norm_num [roundoff]
    _ = (e - a) + (e - a) / 2 ^ 51 := by ring

/-- A sum beyond the end of the range is no further from the exact one than the end is. -/
lemma nearest_add_le (r : l.Runs stop a e h) {i : UInt64} (hi : i ≤ l.last) :
    nearest (a + nearest (nearest i.toNat * h)) ≤ e + (e - a) / 2 ^ 50 := by
  have hproduct := r.product_le hi
  have hwidth := sub_nonneg.mpr r.le
  have hstop := (finite_spec r.stop_eq).1
  generalize nearest (nearest i.toNat * h) = p at hproduct ⊢
  rcases le_total (a + p) e with hle | hle
  · have hnear := nearest_le_of_le hstop hle
    linarith
  · have hnear := abs_sub_nearest_le_of_representable (a + p) hstop
    rw [abs_of_nonneg (sub_nonneg.mpr hle)] at hnear
    have hlow := (abs_le.mp hnear).1
    linarith

/-- A finite point exceeds the end of the range by a small fraction of the width at most. -/
lemma le_of_value_along (r : l.Runs stop a e h) {i : UInt64} (hi : i ≤ l.last) {t : ℚ}
    (ht : value (l.along i) = .finite t) : t ≤ e + (e - a) / 2 ^ 50 := by
  rw [r.value_along] at ht
  obtain ⟨p, q, hp, hq, ht⟩ := exists_finite_of_add ht
  cases hp
  rw [eq_nearest_of_round ht, eq_nearest_of_round hq]
  exact r.nearest_add_le hi

/-- Where the end and the width are not as large as doubles can be, all points are finite. -/
lemma isFinite_along (r : l.Runs stop a e h) (he : e < 2 ^ (1023 : ℤ))
    (hw : e - a < 2 ^ (1023 : ℤ)) {i : UInt64} (hi : i ≤ l.last) :
    (l.along i).isFinite = true := by
  have hlimit : limit = 2 * 2 ^ (1023 : ℤ) := by
    rw [limit, ← zpow_one_add₀ (by norm_num)]
    congr 1
  have hproduct := r.product_le hi
  have hsum := r.nearest_add_le hi
  have hp0 := r.product_nonneg i
  have hwidth := sub_nonneg.mpr r.le
  obtain ⟨hrep, ha⟩ := finite_spec r.start_eq
  generalize (2 : ℚ) ^ (1023 : ℤ) = half at he hw hlimit
  have hround : Value.round (nearest i.toNat * h) = .finite (nearest (nearest i.toNat * h)) := by
    refine if_pos ?_
    rw [abs_of_nonneg hp0, hlimit]
    linarith
  have hvalue : value (l.along i) = .finite (nearest (a + nearest (nearest i.toNat * h))) := by
    rw [r.value_along, hround]
    refine if_pos (abs_lt.mpr ⟨?_, ?_⟩)
    · exact (abs_lt.mp ha).1.trans_le (le_nearest_of_le hrep (by linarith))
    · rw [hlimit]
      linarith
  exact isFinite_of_value hvalue

/-- Where the rounded product does not exceed the width, the point does not exceed the end. -/
lemma along_le_stop (r : l.Runs stop a e h) {i : UInt64}
    (hp : nearest (nearest i.toNat * h) ≤ e - a) : l.along i ≤ stop := by
  obtain ⟨hrep, hlimit⟩ := finite_spec r.stop_eq
  have hround : Value.round (nearest i.toNat * h) = .finite (nearest (nearest i.toNat * h)) := by
    refine if_pos ?_
    rw [abs_of_nonneg (r.product_nonneg i)]
    exact (le_nearest_of_le (representable_nearest _) hp).trans_lt r.width_lt
  rw [le_iff, r.value_along, r.stop_eq, hround, ← round_of_representable hrep hlimit]
  exact round_mono (by linarith)

/-- Up to about `2 ^ 51` steps, only the last point can be beyond the end: a step is more than what the
roundings add. -/
lemma along_le_stop_of_lt (r : l.Runs stop a e h) (hw : e - a ≤ 2 ^ 51 * h) {i : UInt64}
    (hi : i < l.last) : l.along i ≤ stop := by
  have hpos := r.step_pos
  have hnat : (i.toNat : ℚ) + 1 ≤ l.last.toNat := by exact_mod_cast UInt64.lt_iff_toNat_lt.mp hi
  have hproduct : (i.toNat + 1) * h ≤ (e - a) * (1 + roundoff) ^ 2 :=
    (mul_le_mul_of_nonneg_right hnat hpos.le).trans r.last_mul_le_width
  have hsmall : i.toNat ≤ 2 ^ 53 := by
    by_contra! hlarge
    have hlarge' : (2 : ℚ) ^ 53 * h ≤ i.toNat * h := by
      gcongr
      exact_mod_cast hlarge.le
    norm_num [roundoff] at hproduct
    linarith
  apply r.along_le_stop
  rw [nearest_of_representable (representable_natCast hsmall)]
  have hnear := nearest_le_mul_one_add (by positivity) (r.not_underflows_index_mul i.toNat)
  norm_num [roundoff] at hproduct hnear
  linarith

/-- On a grid only the quotient is rounded, and not up to the next whole number. -/
lemma last_mul_le_of_grid {A E H k : ℤ} (r : l.Runs stop (A * 2 ^ k) (E * 2 ^ k) (H * 2 ^ k))
    (hk : -1074 ≤ k) (hD : |E - A| < 2 ^ 53) : l.last.toNat * H ≤ E - A := by
  have hwidth : (E : ℚ) * 2 ^ k - A * 2 ^ k = (E - A : ℤ) * 2 ^ k := by
    push_cast
    ring
  have hlast := r.last_mul_le
  rw [hwidth, nearest_of_representable ⟨E - A, k, hD, hk, rfl⟩, ← mul_assoc,
    mul_right_comm ((E - A : ℤ) : ℚ)] at hlast
  have hunits := le_of_mul_le_mul_right hlast (by positivity)
  have hD' : ((E - A : ℤ) : ℚ) < 2 ^ 53 := by exact_mod_cast lt_of_abs_lt hD
  have hlt : (l.last.toNat : ℚ) * H < (E - A : ℤ) + 1 := by
    norm_num [roundoff] at hunits hD' ⊢
    linarith
  exact Int.lt_add_one_iff.mp (by exact_mod_cast hlt)

/-- On a grid the range is kept. -/
lemma along_le_stop_of_onGrid (r : l.Runs stop a e h) {k : ℤ} (hk : -1074 ≤ k) (ha : OnGrid k a)
    (he : OnGrid k e) (hh : OnGrid k h) {i : UInt64} (hi : i ≤ l.last) : l.along i ≤ stop := by
  obtain ⟨A, hA, rfl⟩ := ha
  obtain ⟨E, hE, rfl⟩ := he
  obtain ⟨H, -, rfl⟩ := hh
  have hD : |E - A| < 2 ^ 53 := by
    rw [abs_lt] at hA hE ⊢
    omega
  have hH : 0 < H := by
    have hpos := r.step_pos
    rw [mul_pos_iff_of_pos_right (by positivity)] at hpos
    exact_mod_cast hpos
  have hlast := r.last_mul_le_of_grid hk hD
  have hindex : (i.toNat : ℤ) ≤ l.last.toNat := by exact_mod_cast UInt64.le_iff_toNat_le.mp hi
  have hproduct : (i.toNat : ℤ) * H ≤ E - A := (mul_le_mul_of_nonneg_right hindex hH.le).trans hlast
  have hproduct0 : 0 ≤ (i.toNat : ℤ) * H := by positivity
  have hsmall : (i.toNat : ℤ) ≤ 2 ^ 53 := by
    have h1 : (i.toNat : ℤ) ≤ i.toNat * H := le_mul_of_one_le_right (by positivity) hH
    exact (h1.trans hproduct).trans (lt_of_abs_lt hD).le
  apply r.along_le_stop
  have hexact : (i.toNat : ℚ) * (H * 2 ^ k) = (i.toNat * H : ℤ) * 2 ^ k := by
    push_cast
    ring
  have hrep : Representable ((i.toNat * H : ℤ) * 2 ^ k) :=
    ⟨_, k, by rw [abs_lt] at hD ⊢; omega, hk, rfl⟩
  rw [nearest_of_representable (representable_natCast (by exact_mod_cast hsmall)), hexact,
    nearest_of_representable hrep, ← sub_mul]
  gcongr
  exact_mod_cast hproduct

end Line.Runs
end Runs

/-- With an infinite step there is one point, zero times infinity beyond the start. -/
lemma IsCounted.of_infinite {n : ℕ} (hc : IsCounted start stop step n)
    (hs : step.isFinite = false) :
    n = 0 ∧ value (Line.along ⟨axis, start, step, fixed, .ofNat n⟩ 0) = .nan := by
  have hh : value step = .infinite .positive := by
    rcases step_cases hc.step_pos with ⟨h, hh, -⟩ | hh
    · rw [isFinite_of_value hh] at hs
      cases hs
    · exact hh
  obtain ⟨a, ha⟩ := exists_finite hc.start_finite
  obtain ⟨q, hq⟩ := exists_finite_of_floor hc.count
  constructor
  · have hcount : (n : ℚ) = ⌊q⌋ := Value.finite.inj (hc.count.symm.trans (value_floor hq))
    rw [quotient_eq_zero hh hq, Int.floor_zero] at hcount
    exact_mod_cast hcount
  · have hzero : value (0 : UInt64).toFloat = .finite 0 := by
      rw [value_toFloat, UInt64.toNat_zero, Nat.cast_zero, nearest_zero]
    show value (start + (0 : UInt64).toFloat * step) = _
    rw [value_add, value_mul, ha, hzero, hh]
    rfl

/-- Where the points of a line lie that runs between two finite ends by steps of `h`. -/
structure Line.Spans (l : Line) (start stop : Float) (a e h : ℚ) : Prop where
  start_eq : value start = .finite a
  stop_eq : value stop = .finite e
  first : value (l.along 0) = value start
  ge_start : ∀ i, start ≤ l.along i
  mono : ∀ i j, i ≤ j → l.along i ≤ l.along j
  /-- Beyond the end there is a small fraction of the width at most. -/
  near_stop : ∀ i ≤ l.last, ∀ t, value (l.along i) = .finite t → t ≤ e + (e - a) / 2 ^ 50
  /-- No point overflows where the end and the width are not as large as doubles can be. -/
  isFinite : e < 2 ^ (1023 : ℤ) → e - a < 2 ^ (1023 : ℤ) → ∀ i ≤ l.last,
    (l.along i).isFinite = true
  /-- Unless the step is too small to be told from the rounding, only the last point can be beyond. -/
  le_stop : e - a ≤ 2 ^ 51 * h → ∀ i < l.last, l.along i ≤ stop
  /-- No point is beyond the end on a grid. -/
  le_stop_on_grid : ∀ k, -1074 ≤ k → OnGrid k a → OnGrid k e → OnGrid k h →
    ∀ i ≤ l.last, l.along i ≤ stop

/-- A line that runs from a start to an end spans the distance. -/
lemma Line.Runs.spans {l : Line} {a e h : ℚ} (r : l.Runs stop a e h) :
    l.Spans l.start stop a e h where
  start_eq := r.start_eq
  stop_eq := r.stop_eq
  first := r.value_along_zero.trans r.start_eq.symm
  ge_start i := by
    have h0 := r.along_mono (UInt64.zero_le (a := i))
    rwa [le_iff, r.value_along_zero, ← r.start_eq, ← le_iff] at h0
  mono i j := r.along_mono
  near_stop i hi t := r.le_of_value_along hi
  isFinite he hw i := r.isFinite_along he hw
  le_stop hw i := r.along_le_stop_of_lt hw
  le_stop_on_grid k hk ha he hh i := r.along_le_stop_of_onGrid hk ha he hh

/-- The points of every line there is. -/
theorem line?_points {l : Line} (hl : line? axis start stop step fixed = some l) :
    (∀ i, axis.coordinate (l.point i) = l.along i ∧ axis.otherCoordinate (l.point i) = fixed) ∧
    (step.isFinite = true → ∃ a e h, value step = .finite h ∧ l.Spans start stop a e h) ∧
    (step.isFinite = false → l.last = 0 ∧ value (l.along 0) = .nan) := by
  obtain ⟨n, hc, rfl⟩ := line?_eq_some_iff.mp hl
  refine ⟨fun i => ?_, fun hs => ?_, fun hs => ?_⟩
  · cases axis <;> exact ⟨rfl, rfl⟩
  · obtain ⟨a, ha⟩ := exists_finite hc.start_finite
    obtain ⟨e, he⟩ := exists_finite hc.stop_finite
    obtain ⟨h, hh⟩ := exists_finite hs
    exact ⟨a, e, h, hh, (hc.runs ha he hh).spans⟩
  · obtain ⟨rfl, hnan⟩ := hc.of_infinite hs
    exact ⟨rfl, hnan⟩

/-- The line from 0 to 1.7 in steps of 0.1. -/
def tenths : Line :=
  ⟨.x, 0.0, 0.1, 0.0, 17⟩

/-- There is a line from 0 to 1.7 in steps of a tenth. -/
lemma line?_tenths : line? .x 0.0 1.7 0.1 0.0 = some tenths :=
  line?_eq_some_iff.mpr ⟨17, ⟨by decide +kernel, by decide +kernel, by decide +kernel,
    by decide +kernel, by decide +kernel, by norm_num⟩, rfl⟩

/-- Of the tenths up to 1.7 none but the last can be beyond the end, and that one by little. -/
theorem tenths_points : line? .x 0.0 1.7 0.1 0.0 = some tenths ∧
    (∀ i < tenths.last, tenths.along i ≤ 1.7) ∧
    ∀ i ≤ tenths.last, ∀ t, value (tenths.along i) = .finite t →
      t ≤ 17 / 10 * (1 + 1 / 2 ^ 50) := by
  obtain ⟨-, hfinite, -⟩ := line?_points line?_tenths
  obtain ⟨a, e, h, hh, hspans⟩ := hfinite (by decide +kernel)
  have ha : a = 0 := Value.finite.inj (hspans.start_eq.symm.trans value_zero)
  have he : e = 7656119366529843 / 2 ^ 52 :=
    Value.finite.inj (hspans.stop_eq.symm.trans (by decide +kernel))
  have hstep : h = 3602879701896397 / 2 ^ 55 :=
    Value.finite.inj (hh.symm.trans (by decide +kernel))
  subst ha he hstep
  refine ⟨line?_tenths, hspans.le_stop (by norm_num), fun i hi t ht => ?_⟩
  have hnear := hspans.near_stop i hi t ht
  norm_num at hnear ⊢
  linarith

/-- The documented range is not kept: the last tenth is beyond the end. -/
theorem last_beyond_stop :
    line? .x 0.0 1.7 0.1 0.0 = some tenths ∧ ¬tenths.along tenths.last ≤ 1.7 :=
  ⟨line?_tenths, by decide +kernel⟩

end Sampling
end PlanarNewton
