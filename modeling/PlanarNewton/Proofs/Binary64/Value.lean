import PlanarNewton.Plane.Scalar
import PlanarNewton.Proofs.Binary64.Rounding

/-!
# Values of doubles

The value of a double is NaN, an infinity, or a rational (`value`); only the sign of a zero is not part
of it. The arithmetic of values computes with rationals and rounds once (`Value.round`). The lemmas
here say what a double is worth that an unpacked number was packed into; the operations are compared
in `Arithmetic` and `Order`.
-/

namespace PlanarNewton.Binary64
open Float.Model Float.Model.UnpackedFloat

/-- A rational with a sign put before it. -/
def signed : Sign → ℚ → ℚ
  | .negative, q => -q
  | .positive, q => q

/-- The sign of a rational; zero is positive. -/
def signOf (q : ℚ) : Sign :=
  if q < 0 then .negative else .positive

/-- The equality of signs is decidable. -/
instance decidableEqSign : DecidableEq Sign
  | .negative, .negative => .isTrue rfl
  | .negative, .positive => .isFalse nofun
  | .positive, .negative => .isFalse nofun
  | .positive, .positive => .isTrue rfl

/-- The value of a double, in which the sign of a zero is forgotten. -/
inductive Value where
  | nan
  | infinite (s : Sign)
  | finite (q : ℚ)
deriving DecidableEq

/-- The power of two beyond all doubles. -/
def limit : ℚ := 2 ^ (1024 : ℤ)

/-- The limit of the doubles is positive. -/
lemma limit_pos : 0 < limit := by
  unfold limit
  positivity

/-- Zero is below the limit of the doubles. -/
lemma abs_zero_lt_limit : |(0 : ℚ)| < limit := by
  rw [abs_zero]
  exact limit_pos

/-- One is below the limit of the doubles. -/
lemma one_lt_limit : 1 < limit :=
  one_lt_zpow₀ (by norm_num) (by norm_num)

namespace Value

/-- The value that a rational is rounded to. -/
def round (q : ℚ) : Value :=
  if |nearest q| < limit then finite (nearest q) else infinite (signOf q)

/-- The value of an unpacked number. -/
def ofUnpacked : UnpackedFloat → Value
  | .notANumber => nan
  | .infinity s => infinite s
  | .zero _ => finite 0
  | .finite s m e _ => finite (signed s (m * 2 ^ e))

/-- The sum of two values, rounded; infinities of different signs have none. -/
protected def add : Value → Value → Value
  | nan, _ => nan
  | _, nan => nan
  | infinite .negative, infinite .negative => infinite .negative
  | infinite .positive, infinite .positive => infinite .positive
  | infinite _, infinite _ => nan
  | infinite s, finite _ => infinite s
  | finite _, infinite s => infinite s
  | finite p, finite q => round (p + q)

/-- The opposite value. -/
protected def neg : Value → Value
  | nan => nan
  | infinite s => infinite (-s)
  | finite q => finite (-q)

/-- The product of two values, rounded; zero and infinity have none. -/
protected def mul : Value → Value → Value
  | nan, _ => nan
  | _, nan => nan
  | infinite s, infinite t => infinite (s * t)
  | infinite s, finite q => if q = 0 then nan else infinite (s * signOf q)
  | finite p, infinite t => if p = 0 then nan else infinite (signOf p * t)
  | finite p, finite q => round (p * q)

/-- The quotient, rounded. The quotient by a zero depends on its sign; here it is NaN. -/
protected def div : Value → Value → Value
  | nan, _ => nan
  | _, nan => nan
  | infinite _, infinite _ => nan
  | finite _, infinite _ => finite 0
  | infinite s, finite q => if q = 0 then nan else infinite (s / signOf q)
  | finite p, finite q => if q = 0 then nan else round (p / q)

/-- The absolute value. -/
def abs : Value → Value
  | nan => nan
  | infinite _ => infinite .positive
  | finite q => finite |q|

/-- The value is a number and not infinite. -/
def isFinite : Value → Bool
  | finite _ => true
  | _ => false

end Value

/-- The value of a double. -/
def value (x : Float) : Value :=
  .ofUnpacked x.toModel.unpack

/-- A negative sign negates. -/
lemma signed_negative (q : ℚ) : signed .negative q = -q := rfl

/-- A positive sign changes nothing. -/
lemma signed_positive (q : ℚ) : signed .positive q = q := rfl

/-- The opposite sign gives the opposite number. -/
lemma signed_neg (s : Sign) (q : ℚ) : signed (-s) q = -signed s q := by
  cases s
  · exact (neg_neg q).symm
  · rfl

/-- A sign does not change the absolute value. -/
lemma abs_signed (s : Sign) (q : ℚ) : |signed s q| = |q| := by
  cases s
  · exact abs_neg q
  · rfl

/-- Rounding commutes with signs. -/
lemma nearest_signed (s : Sign) (q : ℚ) : nearest (signed s q) = signed s (nearest q) := by
  cases s
  · exact nearest_neg q
  · rfl

/-- A positive number with a sign has that sign. -/
lemma signOf_signed (s : Sign) {q : ℚ} (hq : 0 < q) : signOf (signed s q) = s := by
  cases s
  · exact if_pos (neg_lt_zero.mpr hq)
  · exact if_neg hq.le.not_gt

/-- A sign can be given to the mantissa. -/
lemma signed_mul (s : Sign) (n : ℕ) (e : ℤ) :
    signed s (n * 2 ^ e) = (s.apply n : ℤ) * 2 ^ e := by
  cases s
  · show -((n : ℚ) * 2 ^ e) = ((-(n : ℤ) : ℤ) : ℚ) * 2 ^ e
    push_cast
    ring
  · show (n : ℚ) * 2 ^ e = ((n : ℤ) : ℚ) * 2 ^ e
    push_cast
    rfl

namespace Value

/-- A canonical number is in range if it is below the limit of the doubles. -/
lemma inRange_iff {s : Sign} {m : ℕ} {e : ℤ} {hm : 0 < m} (h : Canonical (.finite s m e hm)) :
    e ≤ 971 ↔ (m : ℚ) * 2 ^ e < limit := by
  obtain ⟨hu, hl, hc⟩ := h
  constructor
  · intro he
    calc (m : ℚ) * 2 ^ e < ((2 ^ 53 : ℤ) : ℚ) * 2 ^ e := by
          gcongr
          exact_mod_cast hu
      _ = 2 ^ (e + 53) := (two_zpow_add e 53).symm
      _ ≤ limit := zpow_le_zpow_right₀ (by norm_num) (by omega)
  · intro hlt
    by_contra! he
    have hm52 : 2 ^ 52 ≤ m := hc.resolve_right (by omega)
    apply hlt.not_ge
    calc limit ≤ 2 ^ (e + 52) := zpow_le_zpow_right₀ (by norm_num) (by omega)
      _ = ((2 ^ 52 : ℤ) : ℚ) * 2 ^ e := two_zpow_add e 52
      _ ≤ m * 2 ^ e := by
        gcongr
        exact_mod_cast hm52

/-- A rounded number, clamped, has the value of rounding. -/
lemma ofUnpacked_clamp {s : Sign} {q : ℚ} {u : UnpackedFloat} (hq : 0 < q) (h : IsRounding s q u) :
    ofUnpacked (clamp u) = round (signed s q) := by
  rw [round, nearest_signed, abs_signed, signOf_signed s hq]
  cases h with
  | zero h0 =>
    rw [h0, abs_zero, if_pos limit_pos]
    cases s <;> rfl
  | @finite m e hm hc hn =>
    have hr := inRange_iff hc
    rw [hn, abs_of_nonneg (by positivity)]
    by_cases he : e ≤ 971
    · rw [if_pos (hr.mp he), clamp, if_pos he]
      rfl
    · rw [if_neg fun h => he (hr.mpr h), clamp, if_neg he]
      rfl

/-- The unpacked numbers that doubles have. -/
def IsDouble (u : UnpackedFloat) : Prop :=
  Canonical u ∧ InRange u

/-- What a double unpacks to is a double. -/
lemma isDouble_unpack (x : Float) : IsDouble x.toModel.unpack :=
  ⟨canonical_unpack _, inRange_unpack _⟩

/-- As a value, zero is rounded to itself. -/
@[simp]
lemma round_zero : round 0 = finite 0 := by
  rw [round, nearest_zero, abs_zero, if_pos limit_pos]

/-- A finite double is its own rounding. -/
lemma round_finite {s : Sign} {m : ℕ} {e : ℤ} {hm : 0 < m} (h : IsDouble (.finite s m e hm)) :
    round (signed s (m * 2 ^ e)) = ofUnpacked (.finite s m e hm) := by
  obtain ⟨hc, hr⟩ := h
  have hn : nearest ((m : ℚ) * 2 ^ e) = m * 2 ^ e :=
    nearest_of_representable ⟨m, e, by rw [abs_lt]; have := hc.1; omega, hc.2.1, by push_cast; rfl⟩
  rw [← ofUnpacked_clamp (s := s) (by positivity) (.finite hc hn), clamp_of_inRange hr]

/-- A canonical number is packed to a double of its clamped value. -/
lemma value_pack {u : UnpackedFloat} (h : Canonical u) :
    value (.ofModel (.pack u)) = ofUnpacked (clamp u) := by
  rw [value, unpack_pack h]

/-- What is a double is packed without a change of its value. -/
lemma value_pack_of_isDouble {u : UnpackedFloat} (h : IsDouble u) :
    value (.ofModel (.pack u)) = ofUnpacked u := by
  rw [value_pack h.1, clamp_of_inRange h.2]

/-- A rounded number is packed to the value of rounding. -/
lemma value_pack_of_isRounding {s : Sign} {q : ℚ} {u : UnpackedFloat} (hq : 0 < q)
    (h : IsRounding s q u) : value (.ofModel (.pack u)) = round (signed s q) := by
  rw [value_pack h.canonical, ofUnpacked_clamp hq h]

/-- The value of what is packed as no number. -/
lemma value_pack_notANumber : value (.ofModel (.pack .notANumber)) = nan :=
  value_pack_of_isDouble ⟨trivial, trivial⟩

/-- The value of what is packed as infinity. -/
lemma value_pack_infinity (s : Sign) : value (.ofModel (.pack (.infinity s))) = infinite s :=
  value_pack_of_isDouble ⟨trivial, trivial⟩

/-- The value of what is packed as zero, with either sign. -/
lemma value_pack_zero (s : Sign) : value (.ofModel (.pack (.zero s))) = finite 0 :=
  value_pack_of_isDouble ⟨trivial, trivial⟩

/-- The opposite of a double is one. -/
lemma isDouble_neg {u : UnpackedFloat} (h : IsDouble u) : IsDouble u.neg := by
  cases u <;> exact h

/-- The absolute value of a double is one. -/
lemma isDouble_abs {u : UnpackedFloat} (h : IsDouble u) : IsDouble u.abs := by
  cases u <;> exact h

/-- The value of the opposite of unpacked components. -/
lemma ofUnpacked_neg (u : UnpackedFloat) : ofUnpacked u.neg = (ofUnpacked u).neg := by
  cases u with
  | zero s => exact congrArg finite neg_zero.symm
  | finite s m e hm => exact congrArg finite (signed_neg s _)
  | _ => rfl

/-- The value of the absolute value of unpacked components. -/
lemma ofUnpacked_abs (u : UnpackedFloat) : ofUnpacked u.abs = (ofUnpacked u).abs := by
  cases u with
  | zero s => exact congrArg finite abs_zero.symm
  | finite s m e hm =>
    apply congrArg finite
    rw [abs_signed]
    exact (abs_of_nonneg (by positivity : (0 : ℚ) ≤ m * 2 ^ e)).symm
  | _ => rfl

end Value

open Value

/-- The opposite of a double unpacks to the opposite. -/
lemma unpack_neg (x : Float) : (-x).toModel.unpack = x.toModel.unpack.neg := by
  have h := isDouble_neg (isDouble_unpack x)
  show (Float.Model.pack x.toModel.unpack.neg).unpack = _
  rw [unpack_pack h.1, clamp_of_inRange h.2]

/-- The absolute value of a double unpacks to the absolute value. -/
lemma unpack_abs (x : Float) : x.abs.toModel.unpack = x.toModel.unpack.abs := by
  have h := isDouble_abs (isDouble_unpack x)
  show (Float.Model.pack x.toModel.unpack.abs).unpack = _
  rw [unpack_pack h.1, clamp_of_inRange h.2]

/-- The value of the opposite is the opposite value. -/
lemma value_neg (x : Float) : value (-x) = (value x).neg := by
  rw [value, unpack_neg, ofUnpacked_neg, value]

/-- The value of the absolute value is the absolute value. -/
lemma value_abs (x : Float) : value x.abs = (value x).abs := by
  rw [value, unpack_abs, ofUnpacked_abs, value]

/-- A double is finite if its value is. -/
lemma isFinite_eq (x : Float) : x.isFinite = (value x).isFinite := by
  show x.toModel.unpack.isFinite = _
  rw [value]
  cases x.toModel.unpack <;> rfl

/-- A finite value is representable and below the limit. -/
lemma finite_spec {x : Float} {q : ℚ} (h : value x = Value.finite q) :
    Representable q ∧ |q| < limit := by
  have hd := isDouble_unpack x
  unfold value at h
  generalize x.toModel.unpack = u at h hd
  cases u with
  | notANumber => cases h
  | infinity s => cases h
  | zero s =>
    cases h
    exact ⟨representable_zero, abs_zero_lt_limit⟩
  | finite s m e hm =>
    cases h
    obtain ⟨hc, hr⟩ := hd
    have hlt := (inRange_iff hc).mp hr
    refine ⟨⟨s.apply m, e, ?_, hc.2.1, signed_mul s m e⟩, ?_⟩
    · have hu := hc.1
      rw [abs_lt]
      cases s <;> simp only [Sign.apply] <;> omega
    · rwa [abs_signed, abs_of_nonneg (by positivity)]

/-- The value of a finite double is a rational number. -/
lemma exists_finite {x : Float} (h : x.isFinite = true) : ∃ q, value x = Value.finite q := by
  rw [isFinite_eq] at h
  cases hv : value x with
  | finite q => exact ⟨q, rfl⟩
  | nan => rw [hv] at h; cases h
  | infinite s => rw [hv] at h; cases h

/-- A double whose value is a rational number is finite. -/
lemma isFinite_of_value {x : Float} {q : ℚ} (h : value x = Value.finite q) : x.isFinite = true := by
  rw [isFinite_eq, h]
  rfl

/-- A rational number that is a double is not changed by rounding. -/
lemma round_of_representable {q : ℚ} (h : Representable q) (hq : |q| < limit) :
    Value.round q = Value.finite q := by
  rw [Value.round, nearest_of_representable h, if_pos hq]

/-- What rounds to a finite value rounds to the nearest representable number. -/
lemma eq_nearest_of_round {q r : ℚ} (h : Value.round q = .finite r) : r = nearest q := by
  rw [Value.round] at h
  split at h
  · cases h
    rfl
  · cases h

/-- Between two finite doubles, rounding does not overflow. -/
lemma round_of_mem {p q r : ℚ} (hp : Representable p) (hr : Representable r) (hp' : |p| < limit)
    (hr' : |r| < limit) (h1 : p ≤ q) (h2 : q ≤ r) :
    Value.round q = Value.finite (nearest q) ∧ p ≤ nearest q ∧ nearest q ≤ r := by
  have h3 := le_nearest_of_le hp h1
  have h4 := nearest_le_of_le hr h2
  refine ⟨?_, h3, h4⟩
  have h5 := abs_lt.mp hp'
  have h6 := abs_lt.mp hr'
  rw [Value.round, if_pos (abs_lt.mpr ⟨by linarith, by linarith⟩)]

end PlanarNewton.Binary64
