import PlanarNewton.Proofs.Binary64.Algebra

/-!
# Signed zeros

A double that is not a zero is determined by its value (`eq_of_value_eq`), and a sum is a negative zero
only if both terms are (`add_eq_negZero`). So a coordinate that is no negative zero stays none when a
step is added, and the sign of a zero step makes no difference to it (`add_congr`).
-/

namespace PlanarNewton.Binary64
open Float.Model Float.Model.UnpackedFloat Value

/-- A double is what its components pack to. -/
lemma ofModel_pack (x : Float) : Float.ofModel (.pack x.toModel.unpack) = x :=
  congrArg Float.ofModel (pack_unpack x.toModel)

/-- Doubles with the same components are equal. -/
lemma eq_of_unpack {x y : Float} (h : x.toModel.unpack = y.toModel.unpack) : x = y :=
  congrArg Float.ofModel (unpack_injective h)

/-- A double is determined by its components. -/
lemma eq_ofModel_pack {x : Float} {u : UnpackedFloat} (h : x.toModel.unpack = u) :
    x = .ofModel (.pack u) := by
  rw [← h, ofModel_pack]

/-- The doubles of value zero are the two zeros. -/
lemma value_eq_zero {x : Float} : value x = .finite 0 ↔ x = 0.0 ∨ x = -0.0 := by
  constructor
  · intro h
    unfold value at h
    cases hu : x.toModel.unpack with
    | notANumber => rw [hu] at h; cases h
    | infinity s => rw [hu] at h; cases h
    | zero s =>
      cases s
      · exact .inr (eq_of_unpack (hu.trans rfl))
      · exact .inl (eq_of_unpack (hu.trans rfl))
    | finite s m e hm =>
      rw [hu] at h
      exact absurd (Value.finite.inj h) (signed_ne_zero s (by positivity))
  · rintro (rfl | rfl)
    · rfl
    · rfl

/-- Other doubles than the zeros are determined by their values. -/
lemma eq_of_value_eq {x y : Float} (h : value x = value y) (h0 : value x ≠ .finite 0) : x = y := by
  apply eq_of_unpack
  have hx := isDouble_unpack x
  have hy := isDouble_unpack y
  unfold value at h h0
  generalize x.toModel.unpack = u at *
  generalize y.toModel.unpack = v at *
  cases u with
  | notANumber =>
    cases v with
    | notANumber => rfl
    | infinity | zero | finite => cases h
  | infinity s =>
    cases v with
    | infinity t =>
      cases h
      rfl
    | notANumber | zero | finite => cases h
  | zero s => exact absurd rfl h0
  | finite s m e hm =>
    cases v with
    | notANumber | infinity => cases h
    | zero t => exact absurd h h0
    | finite t n k hn =>
      have hq := Value.finite.inj h
      have hp : (0 : ℚ) < m * 2 ^ e := by positivity
      have hp' : (0 : ℚ) < n * 2 ^ k := by positivity
      -- Canonical numbers are compared by exponents and mantissas, which therefore agree.
      have hs : s = t := by rw [← signOf_signed s hp, hq, signOf_signed t hp']
      have habs := congrArg (|·|) hq
      rw [abs_signed, abs_signed, abs_of_pos hp, abs_of_pos hp'] at habs
      have hc := compare_canonical hx.1 hy.1
      rw [habs, compare_eq_iff_eq.mpr rfl, Ordering.then_eq_eq, compare_eq_iff_eq,
        compare_eq_iff_eq] at hc
      obtain ⟨rfl, rfl⟩ := hc
      rw [hs]

/-- A double that is no zero is the double of its magnitude, with its sign. -/
lemma eq_of_unpack_finite {x y : Float} {s : Sign} {m : ℕ} {e : ℤ} {hm : 0 < m}
    (hx : x.toModel.unpack = .finite s m e hm) (hy : value y = .finite (m * 2 ^ e)) :
    x = match s with
      | .positive => y
      | .negative => -y := by
  have hv : value x = .finite (signed s (m * 2 ^ e)) := by
    rw [value, hx]
    rfl
  have h0 : value x ≠ .finite 0 := by
    rw [hv]
    exact fun h => signed_ne_zero s (by positivity) (Value.finite.inj h)
  cases s with
  | positive => exact eq_of_value_eq (hv.trans hy.symm) h0
  | negative =>
    refine eq_of_value_eq (hv.trans ?_) h0
    rw [value_neg, hy]
    rfl

/-- The least positive double is one. -/
lemma representable_least : Representable (2 ^ (-1074 : ℤ)) :=
  ⟨1, -1074, by norm_num, le_rfl, by norm_num⟩

/-- The opposite of a double is a double. -/
lemma representable_neg {q : ℚ} (h : Representable q) : Representable (-q) := by
  obtain ⟨m, e, hm, he, rfl⟩ := h
  exact ⟨-m, e, by rwa [abs_neg], he, by push_cast; ring⟩

/-- A sum of doubles does not underflow to zero. -/
lemma add_eq_zero_of_round {p q : ℚ} (hp : Representable p) (hq : Representable q)
    (h : Value.round (p + q) = .finite 0) : p + q = 0 := by
  have h0 := eq_nearest_of_round h
  obtain ⟨m, rfl⟩ := exists_mul_two_zpow hp
  obtain ⟨n, rfl⟩ := exists_mul_two_zpow hq
  -- The sum is a multiple of the least double, so it does not fall below that.
  rw [← add_mul, ← Int.cast_add] at h0 ⊢
  have hpos : (0 : ℚ) < 2 ^ (-1074 : ℤ) := by positivity
  rcases lt_trichotomy (m + n) 0 with hlt | heq | hgt
  · have hle : ((m + n : ℤ) : ℚ) ≤ -1 := by exact_mod_cast Int.le_sub_one_of_lt hlt
    have := nearest_le_of_le (q := (m + n : ℤ) * 2 ^ (-1074 : ℤ))
      (representable_neg representable_least) (by nlinarith)
    linarith
  · rw [heq, Int.cast_zero, zero_mul]
  · have hle : (1 : ℚ) ≤ ((m + n : ℤ) : ℚ) := by exact_mod_cast hgt
    have := le_nearest_of_le (q := (m + n : ℤ) * 2 ^ (-1074 : ℤ)) representable_least
      (by nlinarith)
    linarith

/-- A finite double and its negative add up to the positive zero. -/
lemma add_neg_self {x : Float} {q : ℚ} (h : value x = .finite q) (hq : q ≠ 0) : x + -x = 0.0 := by
  show Float.ofModel (.pack (UnpackedFloat.add Format.binary64 _ (-x).toModel.unpack)) = _
  rw [unpack_neg]
  unfold value at h
  cases hu : x.toModel.unpack with
  | notANumber => rw [hu] at h; cases h
  | infinity => rw [hu] at h; cases h
  | zero =>
    rw [hu] at h
    exact absurd (Value.finite.inj h).symm hq
  | finite s m e hm =>
    have h0 (k : ℕ) : s.apply k + (-s).apply k = 0 := by
      cases s
      · exact neg_add_cancel _
      · exact add_neg_cancel _
    show Float.ofModel (.pack (UnpackedFloat.normalize _ (s.apply _ + (-s).apply _) _ _)) = _
    rw [h0]
    rfl

/-- A sum is finite only if both of its terms are and their sum can be rounded. -/
lemma exists_finite_of_add {x y : Value} {r : ℚ} (h : x.add y = .finite r) :
    ∃ p q, x = .finite p ∧ y = .finite q ∧ Value.round (p + q) = .finite r := by
  cases x with
  | nan => cases h
  | infinite s =>
    cases y with
    | nan => cases s <;> cases h
    | infinite t => cases s <;> cases t <;> cases h
    | finite q => cases h
  | finite p =>
    cases y with
    | nan => cases h
    | infinite s => cases h
    | finite q => exact ⟨p, q, rfl, rfl, h⟩

/-- A sum is a negative zero only if both terms are. -/
theorem add_eq_negZero {x y : Float} (h : x + y = -0.0) : x = -0.0 ∧ y = -0.0 := by
  have hv : (value x).add (value y) = .finite 0 := by
    rw [← value_add, h]
    rfl
  obtain ⟨p, q, hx, hy, hr⟩ := exists_finite_of_add hv
  have hpq := add_eq_zero_of_round (finite_spec hx).1 (finite_spec hy).1 hr
  by_cases hp : p = 0
  · have hq : q = 0 := by rwa [hp, zero_add] at hpq
    subst hp hq
    obtain rfl | rfl := value_eq_zero.mp hx <;> obtain rfl | rfl := value_eq_zero.mp hy
    · exact absurd h (by decide)
    · exact absurd h (by decide)
    · exact absurd h (by decide)
    · exact ⟨rfl, rfl⟩
  · -- The terms cancel, and what cancels is a positive zero.
    have hn : y = -x := by
      apply eq_of_value_eq
      · rw [value_neg, hx, hy, eq_neg_of_add_eq_zero_right hpq]
        rfl
      · rw [hy]
        intro h0
        rw [Value.finite.inj h0, add_zero] at hpq
        exact hp hpq
    rw [hn, add_neg_self hx hp] at h
    exact absurd h (by decide)

/-- A double of value zero unpacks to a zero of some sign. -/
lemma exists_zero_of_value {z : Float} (h : value z = .finite 0) :
    ∃ s, z.toModel.unpack = .zero s := by
  obtain rfl | rfl := value_eq_zero.mp h
  · exact ⟨.positive, rfl⟩
  · exact ⟨.negative, rfl⟩

/-- A double that is no negative zero stays as it is when a zero is added. -/
lemma add_zero_of_ne {x z : Float} (hx : x ≠ -0.0) (hz : value z = .finite 0) : x + z = x := by
  have hu : x.toModel.unpack ≠ .zero .negative := fun h => hx (eq_of_unpack (h.trans rfl))
  obtain ⟨s, hs⟩ := exists_zero_of_value hz
  have h : UnpackedFloat.add Format.binary64 x.toModel.unpack (.zero s) = x.toModel.unpack := by
    cases hx : x.toModel.unpack with
    | zero t =>
      cases t
      · exact absurd hx hu
      · cases s <;> rfl
    | _ => rfl
  show Float.ofModel (.pack (UnpackedFloat.add Format.binary64 _ z.toModel.unpack)) = x
  rw [hs, h, ofModel_pack]

/-- To a double that is no negative zero, the sign of an added zero makes no difference. -/
theorem add_congr {x y z : Float} (hx : x ≠ -0.0) (h : value y = value z) : x + y = x + z := by
  by_cases h0 : value y = .finite 0
  · rw [add_zero_of_ne hx h0, add_zero_of_ne hx (h ▸ h0)]
  · rw [eq_of_value_eq h h0]

/-- A quotient by a zero depends on its sign, but is negated with its dividend as well. -/
lemma value_div_zero_neg {x d : Float} (hx : value x ≠ .finite 0) (hd : value d = .finite 0) :
    value (-x / d) = (value (x / d)).neg := by
  obtain ⟨t, ht⟩ := exists_zero_of_value hd
  show value (.ofModel (.pack (UnpackedFloat.div Format.binary64 (-x).toModel.unpack _))) =
    (value (.ofModel (.pack (UnpackedFloat.div Format.binary64 x.toModel.unpack _)))).neg
  rw [unpack_neg, ht]
  unfold value at hx
  cases hu : x.toModel.unpack with
  | notANumber =>
    show value (.ofModel (.pack .notANumber)) = (value (.ofModel (.pack .notANumber))).neg
    rw [value_pack_notANumber]
    rfl
  | zero s => exact absurd (by rw [hu]; rfl) hx
  | infinity s | finite s =>
    show value (.ofModel (.pack (.infinity (-s / t)))) =
      (value (.ofModel (.pack (.infinity (s / t))))).neg
    rw [value_pack_infinity, value_pack_infinity, sign_neg_div]
    rfl

/-- Dividing the negative of a value gives the negative value, whatever the divisor. -/
theorem value_div_of_neg {x x' d : Float} (h : value x' = (value x).neg) :
    value (x' / d) = (value (x / d)).neg := by
  by_cases hd : value d = .finite 0
  · by_cases hx : value x = .finite 0
    · -- Zero by zero is no number, whatever the signs.
      have hx' : value x' = .finite 0 := by
        rw [h, hx]
        exact congrArg Value.finite neg_zero
      obtain ⟨s, hs⟩ := exists_zero_of_value hx
      obtain ⟨s', hs'⟩ := exists_zero_of_value hx'
      obtain ⟨t, ht⟩ := exists_zero_of_value hd
      show value (.ofModel (.pack (UnpackedFloat.div _ x'.toModel.unpack _))) =
        (value (.ofModel (.pack (UnpackedFloat.div _ x.toModel.unpack _)))).neg
      rw [hs, hs', ht]
      show value (.ofModel (.pack .notANumber)) = (value (.ofModel (.pack .notANumber))).neg
      rw [value_pack_notANumber]
      rfl
    · have hx' : x' = -x := by
        apply eq_of_value_eq
        · rw [h, value_neg]
        · intro h0
          rw [h0] at h
          apply hx
          rw [← Value.neg_neg (value x), ← h]
          exact congrArg Value.finite neg_zero
      rw [hx', value_div_zero_neg hx hd]
  · rw [value_div hd, value_div hd, h, Value.neg_div]

/-- A double from zero upwards that is no negative zero. -/
structure IsPlus (x : Float) : Prop where
  exists_nonneg : ∃ q, value x = .finite q ∧ 0 ≤ q
  ne_negZero : x ≠ -0.0

/-- A double from zero upwards that is no negative zero unpacks to the positive zero or to a
positive number. -/
lemma IsPlus.unpack {x : Float} (h : IsPlus x) : x.toModel.unpack = .zero .positive ∨
    ∃ m e hm, x.toModel.unpack = .finite .positive m e hm := by
  obtain ⟨⟨q, hq, h0⟩, hx⟩ := h
  unfold value at hq
  cases hu : x.toModel.unpack with
  | notANumber => rw [hu] at hq; cases hq
  | infinity => rw [hu] at hq; cases hq
  | zero s =>
    cases s
    · exact absurd (eq_of_unpack (hu.trans rfl)) hx
    · exact .inl rfl
  | finite s m e hm =>
    cases s
    · rw [hu] at hq
      have hpos : (0 : ℚ) < m * 2 ^ e := by positivity
      rw [← Value.finite.inj hq, signed_negative] at h0
      linarith
    · exact .inr ⟨m, e, hm, rfl⟩

/-- The product of two such doubles is no negative zero. -/
lemma mul_ne_negZero {x y : Float} (hx : IsPlus x) (hy : IsPlus y) : x * y ≠ -0.0 := by
  intro h
  have hdx := isDouble_unpack x
  have hdy := isDouble_unpack y
  have h : Float.ofModel (.pack (UnpackedFloat.mul Format.binary64 x.toModel.unpack
    y.toModel.unpack)) = -0.0 := h
  obtain hu | ⟨m, e, hm, hu⟩ := hx.unpack <;> obtain hv | ⟨n, k, hn, hv⟩ := hy.unpack <;>
    rw [hu, hv] at h
  · exact absurd h (by decide)
  · exact absurd (show (0.0 : Float) = -0.0 from h) (by decide)
  · exact absurd (show (0.0 : Float) = -0.0 from h) (by decide)
  · rw [hu] at hdx
    rw [hv] at hdy
    have hr := isRounding_mul .positive .positive hm hn (exponent_le_of_mul hdx.1 hdy.1)
    have hc := unpack_pack hr.canonical
    rw [show Float.Model.pack _ = (-0.0 : Float).toModel from congrArg Float.toModel h] at hc
    generalize UnpackedFloat.mul Format.binary64 _ _ = w at hr hc
    cases hr with
    | zero => cases hc
    | @finite m e hm =>
      change UnpackedFloat.zero .negative = if e ≤ 971 then _ else _ at hc
      split at hc <;> cases hc

end PlanarNewton.Binary64
