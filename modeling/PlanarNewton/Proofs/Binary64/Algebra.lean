import PlanarNewton.Proofs.Binary64.Arithmetic
import PlanarNewton.Proofs.Binary64.Order

/-!
# Algebra of values

The laws of rounded arithmetic that hold for every value: sums and products commute, and negation moves
through sums, products and quotients (`Value.neg_add`, `Value.neg_mul`, `Value.neg_div`,
`Value.div_neg`). Doubles themselves satisfy them up to the sign of a zero. The larger of two values
does not depend on their order (`Value.larger_comm`).
-/

namespace PlanarNewton.Binary64
open Float.Model Float.Model.UnpackedFloat

/-- The opposite of a number has the opposite sign. -/
lemma signOf_neg {q : ℚ} (hq : q ≠ 0) : signOf (-q) = -signOf q := by
  rcases lt_or_gt_of_ne hq with h | h
  · rw [signOf, signOf, if_pos h, if_neg (neg_pos.mpr h).not_gt]
    rfl
  · rw [signOf, signOf, if_pos (neg_lt_zero.mpr h), if_neg h.not_gt]
    rfl

/-- Signs are multiplied in any order. -/
lemma sign_mul_comm (s t : Sign) : s * t = t * s := by
  cases s <;> cases t <;> rfl

/-- A minus moves out of the first factor. -/
lemma sign_neg_mul (s t : Sign) : -s * t = -(s * t) := by
  cases s <;> cases t <;> rfl

/-- A minus moves out of a dividend. -/
lemma sign_neg_div (s t : Sign) : -s / t = -(s / t) := by
  cases s <;> cases t <;> rfl

/-- A minus moves out of a divisor. -/
lemma sign_div_neg (s t : Sign) : s / -t = -(s / t) := by
  cases s <;> cases t <;> rfl

namespace Value

/-- Rounding is symmetric about zero. -/
lemma round_neg (q : ℚ) : Value.round (-q) = (Value.round q).neg := by
  rw [Value.round, Value.round, nearest_neg, abs_neg]
  split
  · rfl
  · rename_i h
    have hq : q ≠ 0 := by
      rintro rfl
      rw [nearest_zero, abs_zero] at h
      exact h limit_pos
    rw [signOf_neg hq]
    rfl

/-- A value negated twice is the value. -/
@[simp]
protected lemma neg_neg (x : Value) : x.neg.neg = x := by
  cases x with
  | nan => rfl
  | infinite s => cases s <;> rfl
  | finite q => exact congrArg Value.finite (neg_neg q)

/-- Values are added in any order. -/
protected lemma add_comm (x y : Value) : x.add y = y.add x := by
  cases x with
  | nan => cases y <;> rfl
  | infinite s =>
    cases y with
    | nan => cases s <;> rfl
    | infinite t => cases s <;> cases t <;> rfl
    | finite q => rfl
  | finite p =>
    cases y with
    | nan => rfl
    | infinite t => rfl
    | finite q => exact congrArg Value.round (add_comm p q)

/-- The negative of a sum. -/
protected lemma neg_add (x y : Value) : (x.add y).neg = x.neg.add y.neg := by
  cases x with
  | nan => rfl
  | infinite s =>
    cases y with
    | nan => cases s <;> rfl
    | infinite t => cases s <;> cases t <;> rfl
    | finite q => rfl
  | finite p =>
    cases y with
    | nan => rfl
    | infinite t => rfl
    | finite q =>
      show (Value.round (p + q)).neg = Value.round (-p + -q)
      rw [← round_neg, neg_add]

/-- Values are multiplied in any order. -/
protected lemma mul_comm (x y : Value) : x.mul y = y.mul x := by
  cases x with
  | nan => cases y <;> rfl
  | infinite s =>
    cases y with
    | nan => rfl
    | infinite t => exact congrArg Value.infinite (sign_mul_comm s t)
    | finite q =>
      show (if q = 0 then nan else Value.infinite (s * signOf q)) = if q = 0 then nan else _
      rw [sign_mul_comm]
  | finite p =>
    cases y with
    | nan => rfl
    | infinite t =>
      show (if p = 0 then nan else Value.infinite (signOf p * t)) = if p = 0 then nan else _
      rw [sign_mul_comm]
    | finite q => exact congrArg Value.round (mul_comm p q)

/-- The negative of a product, by its first factor. -/
protected lemma neg_mul (x y : Value) : x.neg.mul y = (x.mul y).neg := by
  cases x with
  | nan => rfl
  | infinite s =>
    cases y with
    | nan => rfl
    | infinite t => exact congrArg Value.infinite (sign_neg_mul s t)
    | finite q =>
      show (if q = 0 then nan else Value.infinite (-s * signOf q)) =
        (if q = 0 then nan else Value.infinite (s * signOf q)).neg
      split
      · rfl
      · exact congrArg Value.infinite (sign_neg_mul s _)
  | finite p =>
    cases y with
    | nan => rfl
    | infinite t =>
      show (if -p = 0 then nan else Value.infinite (signOf (-p) * t)) =
        (if p = 0 then nan else Value.infinite (signOf p * t)).neg
      by_cases hp : p = 0
      · rw [if_pos hp, if_pos (neg_eq_zero.mpr hp)]
        rfl
      · rw [if_neg hp, if_neg (neg_ne_zero.mpr hp), signOf_neg hp, sign_neg_mul]
        rfl
    | finite q =>
      show Value.round (-p * q) = (Value.round (p * q)).neg
      rw [← round_neg, neg_mul]

/-- The negative of a product, by its second factor. -/
protected lemma mul_neg (x y : Value) : x.mul y.neg = (x.mul y).neg := by
  rw [Value.mul_comm, Value.neg_mul, Value.mul_comm]

/-- The negative of a quotient, by its dividend. -/
protected lemma neg_div (x y : Value) : x.neg.div y = (x.div y).neg := by
  cases x with
  | nan => rfl
  | infinite s =>
    cases y with
    | nan => rfl
    | infinite t => rfl
    | finite q =>
      show (if q = 0 then nan else Value.infinite (-s / signOf q)) =
        (if q = 0 then nan else Value.infinite (s / signOf q)).neg
      split
      · rfl
      · exact congrArg Value.infinite (sign_neg_div s _)
  | finite p =>
    cases y with
    | nan => rfl
    | infinite t => exact congrArg Value.finite neg_zero.symm
    | finite q =>
      show (if q = 0 then nan else Value.round (-p / q)) =
        (if q = 0 then nan else Value.round (p / q)).neg
      split
      · rfl
      · rw [neg_div, round_neg]

/-- The negative of a quotient, by its divisor. -/
protected lemma div_neg (x y : Value) : x.div y.neg = (x.div y).neg := by
  cases x with
  | nan => rfl
  | infinite s =>
    cases y with
    | nan => rfl
    | infinite t => rfl
    | finite q =>
      show (if -q = 0 then nan else Value.infinite (s / signOf (-q))) =
        (if q = 0 then nan else Value.infinite (s / signOf q)).neg
      by_cases hq : q = 0
      · rw [if_pos hq, if_pos (neg_eq_zero.mpr hq)]
        rfl
      · rw [if_neg hq, if_neg (neg_ne_zero.mpr hq), signOf_neg hq, sign_div_neg]
        rfl
  | finite p =>
    cases y with
    | nan => rfl
    | infinite t => exact congrArg Value.finite neg_zero.symm
    | finite q =>
      show (if -q = 0 then nan else Value.round (p / -q)) =
        (if q = 0 then nan else Value.round (p / q)).neg
      by_cases hq : q = 0
      · rw [if_pos hq, if_pos (neg_eq_zero.mpr hq)]
        rfl
      · rw [if_neg hq, if_neg (neg_ne_zero.mpr hq), div_neg, round_neg]

/-- Opposite values have the same absolute value. -/
@[simp]
protected lemma abs_neg (x : Value) : x.neg.abs = x.abs := by
  cases x with
  | finite q => exact congrArg Value.finite (abs_neg q)
  | _ => rfl

/-- The opposite of a value is finite if the value is. -/
@[simp]
lemma isFinite_neg (x : Value) : x.neg.isFinite = x.isFinite := by
  cases x <;> rfl

/-- The value is NaN. -/
def isNaN : Value → Bool
  | nan => true
  | _ => false

/-- The value is an infinity. -/
def isInfinite : Value → Bool
  | infinite _ => true
  | _ => false

/-- The larger of two values, where NaN gives way to the other. -/
def larger (x y : Value) : Value :=
  if x.isNaN then y
  else if y.isNaN then x
  else if x.lt y then y
  else x

/-- The larger of two finite values is the larger number. -/
lemma larger_finite (p q : ℚ) : (finite p).larger (finite q) = finite (max p q) := by
  show (if (finite p).lt (finite q) = true then finite q else finite p) = _
  simp only [finite_lt]
  split
  · rw [max_eq_right (le_of_lt ‹_›)]
  · rw [max_eq_left (not_lt.mp ‹_›)]

/-- Which value is named first makes no difference to the larger one. -/
lemma larger_comm (x y : Value) : x.larger y = y.larger x := by
  cases x with
  | nan => cases y <;> rfl
  | infinite s => cases y with
    | nan => rfl
    | infinite t => cases s <;> cases t <;> rfl
    | finite q => cases s <;> rfl
  | finite p => cases y with
    | nan => rfl
    | infinite t => cases t <;> rfl
    | finite q =>
      show (if (Value.finite p).lt (.finite q) = true then Value.finite q else .finite p) =
        if (Value.finite q).lt (.finite p) = true then Value.finite p else .finite q
      simp only [finite_lt]
      rcases lt_trichotomy p q with h | rfl | h
      · rw [if_pos h, if_neg h.not_gt]
      · rfl
      · rw [if_pos h, if_neg h.not_gt]

end Value

open Value

/-- A double is not a number if its value is not. -/
lemma isNaN_eq (x : Float) : x.isNaN = (value x).isNaN := by
  show x.toModel.unpack.isNaN = _
  rw [value]
  cases x.toModel.unpack <;> rfl

/-- A double is infinite if its value is. -/
lemma isInf_eq (x : Float) : x.isInf = (value x).isInfinite := by
  show x.toModel.unpack.isInf = _
  rw [value]
  cases x.toModel.unpack <;> rfl

/-- The larger of two doubles has the larger value. -/
lemma value_larger (x y : Float) : value (larger x y) = (value x).larger (value y) := by
  rw [larger, Value.larger, isNaN_eq, isNaN_eq]
  split
  · rfl
  · split
    · rfl
    · simp only [← lt_iff]
      split <;> rfl

end PlanarNewton.Binary64
