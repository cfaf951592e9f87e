import PlanarNewton.Proofs.Binary64.Value

/-!
# Order of doubles

Doubles compare as their values do (`compare_eq`): for canonical numbers of one sign, the exponents
decide and then the mantissas. Values other than NaN have places in a linear order
(`Value.lt_iff_place`), so the order of doubles is transitive.
-/

namespace PlanarNewton.Binary64
open Float.Model Float.Model.UnpackedFloat

namespace Value

/-- The order of two values; nothing compares with NaN. -/
protected def compare : Value → Value → Option Ordering
  | nan, _ => none
  | _, nan => none
  | infinite s, infinite t => some (compare s t)
  | infinite .positive, finite _ => some .gt
  | infinite .negative, finite _ => some .lt
  | finite _, infinite .positive => some .lt
  | finite _, infinite .negative => some .gt
  | finite p, finite q => some (compare p q)

/-- The first value is below the second. -/
protected def lt (x y : Value) : Bool :=
  x.compare y == some .lt

/-- The first value is not above the second. -/
protected def le (x y : Value) : Bool :=
  (x.compare y).any (·.isLE)

/-- Finite values compare as rationals do. -/
lemma finite_lt (p q : ℚ) : (finite p).lt (finite q) = true ↔ p < q := by
  show (some (compare p q) == some Ordering.lt) = true ↔ _
  rw [beq_iff_eq, Option.some.injEq, compare_lt_iff_lt]

/-- Finite values are compared as numbers. -/
lemma finite_le (p q : ℚ) : (finite p).le (finite q) = true ↔ p ≤ q := by
  show (compare p q).isLE = true ↔ _
  rw [← compare_le_iff_le, Ordering.isLE_iff_ne_gt]

/-- Infinite values are equal if their signs are. -/
lemma compare_infinite {s t : Sign} : (infinite s).compare (infinite t) = some .eq ↔ s = t := by
  cases s <;> cases t <;> decide

/-- A canonical number with a smaller exponent is smaller. -/
lemma lt_of_exponent_lt {s t : Sign} {m n : ℕ} {e k : ℤ} {hm : 0 < m} {hn : 0 < n}
    (hu : Canonical (.finite s m e hm)) (hv : Canonical (.finite t n k hn)) (h : e < k) :
    (m : ℚ) * 2 ^ e < n * 2 ^ k := by
  have hn52 : 2 ^ 52 ≤ n := hv.2.2.resolve_right (by have := hu.2.1; omega)
  calc (m : ℚ) * 2 ^ e < ((2 ^ 53 : ℤ) : ℚ) * 2 ^ e := by
        gcongr
        exact_mod_cast hu.1
    _ = 2 ^ (e + 53) := (two_zpow_add e 53).symm
    _ ≤ 2 ^ (k + 52) := zpow_le_zpow_right₀ (by norm_num) (by omega)
    _ = ((2 ^ 52 : ℤ) : ℚ) * 2 ^ k := two_zpow_add k 52
    _ ≤ n * 2 ^ k := by
      gcongr
      exact_mod_cast hn52

/-- Canonical numbers are compared by their exponents first, and then by their mantissas. -/
lemma compare_canonical {s t : Sign} {m n : ℕ} {e k : ℤ} {hm : 0 < m} {hn : 0 < n}
    (hu : Canonical (.finite s m e hm)) (hv : Canonical (.finite t n k hn)) :
    (compare e k).then (compare m n) = compare ((m : ℚ) * 2 ^ e) (n * 2 ^ k) := by
  rcases lt_trichotomy e k with h | rfl | h
  · rw [compare_lt_iff_lt.mpr h, compare_lt_iff_lt.mpr (lt_of_exponent_lt hu hv h)]
    rfl
  · rw [compare_eq_iff_eq.mpr rfl]
    show compare m n = _
    have hp : (0 : ℚ) < 2 ^ e := by positivity
    rcases lt_trichotomy m n with h | rfl | h
    · rw [compare_lt_iff_lt.mpr h, compare_lt_iff_lt.mpr]
      gcongr
    · rw [compare_eq_iff_eq.mpr rfl, compare_eq_iff_eq.mpr rfl]
    · rw [compare_gt_iff_gt.mpr h, compare_gt_iff_gt.mpr]
      gcongr
  · rw [compare_gt_iff_gt.mpr h, compare_gt_iff_gt.mpr (lt_of_exponent_lt hv hu h)]
    rfl

/-- The comparison of opposite numbers is the other way round. -/
lemma compare_neg (p q : ℚ) : compare (-p) (-q) = (compare p q).swap := by
  rcases lt_trichotomy p q with h | rfl | h
  · rw [compare_lt_iff_lt.mpr h, compare_gt_iff_gt.mpr (neg_lt_neg h)]
    rfl
  · rw [compare_eq_iff_eq.mpr rfl, compare_eq_iff_eq.mpr rfl]
    rfl
  · rw [compare_gt_iff_gt.mpr h, compare_lt_iff_lt.mpr (neg_lt_neg h)]
    rfl

/-- Doubles compare as their values do. -/
lemma compare_eq {u v : UnpackedFloat} (hu : IsDouble u) (hv : IsDouble v) :
    u.compare v = (ofUnpacked u).compare (ofUnpacked v) := by
  cases u with
  | notANumber => rfl
  | infinity s => cases v <;> cases s <;> rfl
  | zero s =>
    cases v with
    | notANumber => rfl
    | infinity t => cases t <;> rfl
    | zero t =>
      show _ = some (compare 0 0)
      rw [compare_eq_iff_eq.mpr rfl]
      rfl
    | finite t n k hn =>
      have hq : (0 : ℚ) < n * 2 ^ k := by positivity
      show _ = some (compare 0 (signed t (n * 2 ^ k)))
      cases t
      · rw [signed_negative, compare_gt_iff_gt.mpr (neg_lt_zero.mpr hq)]
        rfl
      · rw [signed_positive, compare_lt_iff_lt.mpr hq]
        rfl
  | finite s m e hm =>
    have hp : (0 : ℚ) < m * 2 ^ e := by positivity
    cases v with
    | notANumber => rfl
    | infinity t => cases t <;> cases s <;> rfl
    | zero t =>
      show _ = some (compare (signed s (m * 2 ^ e)) 0)
      cases s
      · rw [signed_negative, compare_lt_iff_lt.mpr (neg_lt_zero.mpr hp)]
        rfl
      · rw [signed_positive, compare_gt_iff_gt.mpr hp]
        rfl
    | finite t n k hn =>
      have hq : (0 : ℚ) < n * 2 ^ k := by positivity
      show _ = some (compare (signed s (m * 2 ^ e)) (signed t (n * 2 ^ k)))
      cases s <;> cases t
      · show some _ = some (compare (-_) (-_))
        rw [compare_neg, ← compare_canonical hu.1 hv.1]
      · rw [signed_negative, signed_positive, compare_lt_iff_lt.mpr ((neg_lt_zero.mpr hp).trans hq)]
        rfl
      · rw [signed_negative, signed_positive, compare_gt_iff_gt.mpr ((neg_lt_zero.mpr hq).trans hp)]
        rfl
      · show some _ = some (compare _ _)
        rw [compare_canonical hu.1 hv.1]
        rfl

/-- The place of a value in the order; NaN has none. -/
def place : Value → Option (WithBot (WithTop ℚ))
  | nan => none
  | infinite .negative => some ⊥
  | infinite .positive => some ⊤
  | finite q => some ((q : WithTop ℚ) : WithBot (WithTop ℚ))

/-- Every number is below infinity. -/
lemma coe_lt_top (q : ℚ) : ((q : WithTop ℚ) : WithBot (WithTop ℚ)) < ⊤ :=
  WithBot.coe_lt_coe.mpr (WithTop.coe_lt_top q)

/-- Values compare as their places do. -/
lemma lt_iff_place (x y : Value) : x.lt y = true ↔ ∃ k ∈ x.place, ∃ l ∈ y.place, k < l := by
  cases x with
  | nan => simp [place, Value.lt, Value.compare]
  | infinite s =>
    cases y with
    | nan => simp [place, Value.lt, Value.compare]
    | infinite t =>
      cases s <;> cases t <;> simp [place, Value.lt, Value.compare]
      decide
    | finite q => cases s <;> simp [place, Value.lt, Value.compare]
  | finite p =>
    cases y with
    | nan => simp [place, Value.lt, Value.compare]
    | infinite t => cases t <;> simp [place, Value.lt, Value.compare, coe_lt_top]
    | finite q => simp [place, finite_lt]

/-- A value is at most another if both have a place in the order and the places are so. -/
lemma le_iff_place (x y : Value) : x.le y = true ↔ ∃ k ∈ x.place, ∃ l ∈ y.place, k ≤ l := by
  cases x with
  | nan => simp [place, Value.le, Value.compare]
  | infinite s =>
    cases y with
    | nan => simp [place, Value.le, Value.compare]
    | infinite t => cases s <;> cases t <;> simp [place, Value.le, Value.compare] <;> decide
    | finite q => cases s <;> simp [place, Value.le, Value.compare]
  | finite p =>
    cases y with
    | nan => simp [place, Value.le, Value.compare]
    | infinite t => cases t <;> simp [place, Value.le, Value.compare]
    | finite q => simp [place, finite_le]

/-- What is below a value is below every larger one. -/
lemma lt_of_lt_of_le {x y z : Value} (h : x.lt y = true) (h' : y.le z = true) :
    x.lt z = true := by
  obtain ⟨k, hk, l, hl, hkl⟩ := (lt_iff_place x y).mp h
  obtain ⟨l', hl', m, hm, hlm⟩ := (le_iff_place y z).mp h'
  obtain rfl := Option.mem_unique hl hl'
  exact (lt_iff_place x z).mpr ⟨k, hk, m, hm, hkl.trans_le hlm⟩

/-- The order of values is transitive. -/
lemma le_trans {x y z : Value} (h : x.le y = true) (h' : y.le z = true) : x.le z = true := by
  obtain ⟨k, hk, l, hl, hkl⟩ := (le_iff_place x y).mp h
  obtain ⟨l', hl', m, hm, hlm⟩ := (le_iff_place y z).mp h'
  obtain rfl := Option.mem_unique hl hl'
  exact (le_iff_place x z).mpr ⟨k, hk, m, hm, hkl.trans hlm⟩

end Value

open Value

/-- A double is less than another if its value is. -/
lemma lt_iff (x y : Float) : x < y ↔ (value x).lt (value y) = true := by
  show decide (UnpackedFloat.lt _ _ = true) = true ↔ _
  rw [decide_eq_true_iff, UnpackedFloat.lt, compare_eq (isDouble_unpack x) (isDouble_unpack y)]
  rfl

/-- A double is at most another if its value is. -/
lemma le_iff (x y : Float) : x ≤ y ↔ (value x).le (value y) = true := by
  show decide (UnpackedFloat.le _ _ = true) = true ↔ _
  rw [decide_eq_true_iff, UnpackedFloat.le, compare_eq (isDouble_unpack x) (isDouble_unpack y)]
  rfl

/-- Doubles are equal in comparisons if their values are. -/
lemma beq_iff (x y : Float) : (x == y) = true ↔ (value x).compare (value y) = some .eq := by
  show (UnpackedFloat.compare _ _ == some .eq) = true ↔ _
  rw [compare_eq (isDouble_unpack x) (isDouble_unpack y), beq_iff_eq]
  rfl

/-- The order of doubles is transitive, also with NaN and the infinities. -/
lemma float_lt_of_lt_of_le {x y z : Float} (h : x < y) (h' : y ≤ z) : x < z :=
  (lt_iff x z).mpr (Value.lt_of_lt_of_le ((lt_iff x y).mp h) ((le_iff y z).mp h'))

/-- The order of doubles is transitive. -/
lemma float_le_trans {x y z : Float} (h : x ≤ y) (h' : y ≤ z) : x ≤ z :=
  (le_iff x z).mpr (Value.le_trans ((le_iff x y).mp h) ((le_iff y z).mp h'))

/-- Of two finite doubles, one is below the other unless they compare the other way round. -/
lemma float_not_le {x y : Float} (hx : x.isFinite = true) (hy : y.isFinite = true) :
    ¬x ≤ y ↔ y < x := by
  obtain ⟨p, hp⟩ := exists_finite hx
  obtain ⟨q, hq⟩ := exists_finite hy
  rw [le_iff, lt_iff, hp, hq, Value.finite_le, Value.finite_lt, not_le]

end PlanarNewton.Binary64
