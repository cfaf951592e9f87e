import PlanarNewton.Proofs.Sampling.Comparison

/-!
# Laws of agreement

On values, agreement is one condition for each pair of kinds (`agree_iff`): infinities agree by their
signs, and finite numbers where the rounded difference is within the rounded tolerance, either of which may
overflow. So it does not depend on the order of the two values, nor on a sign given to both; every value
but NaN agrees with itself; and more accuracy allowed is never less agreement, because multiplying by a
positive number keeps the order up to the infinities (`Value.mul_finite_mono`). A comparison asks for
agreement at each sample (`sameFunction_iff_forall`), and so it has the same laws. Main statement:
`agree_laws`.
-/

namespace PlanarNewton
namespace Binary64
open Float.Model Float.Model.UnpackedFloat

namespace Value

/-- Two values agree up to an accuracy. -/
def Agrees : Value → Value → Value → Prop
  | infinite s, infinite t, _ => s = t
  | finite p, finite q, accuracy =>
    (Value.round (p - q)).abs.le (accuracy.mul (finite (max (max 1 |p|) |q|))) = true
  | _, _, _ => False

variable {x y e e' : Value}

/-- Values agree in both directions. -/
lemma agrees_comm : x.Agrees y e ↔ y.Agrees x e := by
  cases x with
  | nan => cases y <;> exact Iff.rfl
  | infinite s => cases y with
    | infinite t => exact eq_comm
    | nan | finite => exact Iff.rfl
  | finite p => cases y with
    | nan | infinite => exact Iff.rfl
    | finite q =>
      show (Value.round (p - q)).abs.le _ = true ↔ (Value.round (q - p)).abs.le _ = true
      rw [← neg_sub q p, round_neg, Value.abs_neg, max_right_comm]

/-- Opposite values agree as the values do. -/
lemma agrees_neg : x.neg.Agrees y.neg e ↔ x.Agrees y e := by
  cases x with
  | nan => exact Iff.rfl
  | infinite s => cases y with
    | infinite t =>
      show -s = -t ↔ s = t
      cases s <;> cases t <;> decide
    | nan | finite => exact Iff.rfl
  | finite p => cases y with
    | nan | infinite => exact Iff.rfl
    | finite q =>
      have hsub : -p - -q = -(p - q) := by ring
      show (Value.round (-p - -q)).abs.le (e.mul (finite (max (max 1 |-p|) |-q|))) = true ↔ _
      rw [hsub, round_neg, Value.abs_neg, abs_neg, abs_neg]
      exact Iff.rfl

/-- The tolerance is a multiple of the accuracy by a positive number. -/
lemma scale_pos (p q : ℚ) : 0 < max (max 1 |p|) |q| :=
  lt_max_of_lt_left (lt_max_of_lt_left one_pos)

/-- A number agrees with itself within every accuracy that is not negative. -/
lemma agrees_self (hx : x ≠ nan) (he : (finite 0).le e = true) : x.Agrees x e := by
  cases x with
  | nan => exact absurd rfl hx
  | infinite s => rfl
  | finite p =>
    have hmono := mul_finite_mono he (scale_pos p p)
    change (Value.round (0 * _)).le _ = true at hmono
    rw [zero_mul, round_zero] at hmono
    show (Value.round (p - p)).abs.le _ = true
    rw [sub_self, round_zero]
    show (finite |0|).le _ = true
    rw [abs_zero]
    exact hmono

/-- What agrees within an accuracy agrees within a larger one. -/
lemma Agrees.mono (h : x.Agrees y e) (he : e.le e' = true) : x.Agrees y e' := by
  cases x with
  | nan => cases h
  | infinite s => cases y with
    | infinite t => exact h
    | nan | finite => cases h
  | finite p => cases y with
    | nan | infinite => cases h
    | finite q => exact le_trans h (mul_finite_mono he (scale_pos p q))

end Value
end Binary64

namespace Sampling
open Binary64 Binary64.Value

/-- Doubles agree if their values do. -/
lemma agree_iff {a b e : Float} :
    agree a b e = true ↔ (value a).Agrees (value b) (value e) := by
  have hle (x y : Float) : decide (x ≤ y) = (value x).le (value y) := by
    rw [Bool.eq_iff_iff, decide_eq_true_iff, le_iff]
  have hbeq (x y : Float) : (x == y) = decide ((value x).compare (value y) = some .eq) := by
    rw [Bool.eq_iff_iff, decide_eq_true_iff, beq_iff]
  simp only [agree, isNaN_eq, isInf_eq, hle, hbeq, value_abs, value_sub, value_mul, value_larger,
    value_one]
  cases value a with
  | nan => simp [Value.isNaN, Agrees]
  | infinite s => cases value b with
    | nan => simp [Value.isNaN, Agrees]
    | infinite t => simp [Value.isNaN, Value.isInfinite, Agrees, compare_infinite]
    | finite q => cases s <;> simp [Value.isNaN, Value.isInfinite, Agrees, Value.compare]
  | finite p => cases value b with
    | nan => simp [Value.isNaN, Agrees]
    | infinite t => cases t <;> simp [Value.isNaN, Value.isInfinite, Agrees, Value.compare]
    | finite q =>
      simp only [Value.isNaN, Value.isInfinite, Bool.or_self, Bool.false_eq_true, if_false]
      show Value.le (Value.round (p + -q)).abs
        (Value.mul _ (Value.larger (Value.larger (finite 1) (finite |p|)) (finite |q|))) = true ↔ _
      have hsub : p + -q = p - q := (sub_eq_add_neg p q).symm
      rw [larger_finite, larger_finite, hsub]
      exact Iff.rfl

variable {a b e e' : Float}

/-- The comparison of doubles is symmetric. -/
lemma agree_comm : agree b a e = agree a b e := by
  rw [Bool.eq_iff_iff, agree_iff, agree_iff, agrees_comm]

/-- Opposite doubles agree as the doubles do. -/
lemma agree_neg : agree (-a) (-b) e = agree a b e := by
  rw [Bool.eq_iff_iff, agree_iff, agree_iff, value_neg, value_neg, agrees_neg]

/-- A double that is a number agrees with itself. -/
lemma agree_self (ha : a.isNaN = false) (he : 0.0 ≤ e) : agree a a e = true := by
  rw [le_iff, value_zero] at he
  rw [isNaN_eq] at ha
  refine agree_iff.mpr (agrees_self (fun h => ?_) he)
  rw [h] at ha
  cases ha

/-- Doubles that agree within an accuracy agree within a larger one. -/
lemma agree_mono (he : e ≤ e') (h : agree a b e = true) : agree a b e' = true :=
  agree_iff.mpr ((agree_iff.mp h).mono ((le_iff e e').mp he))

section Lines

variable {axis : Axis} {f g : Vec2 Float → Float} {start stop step fixed : Float} {l : Line}

/-- The points of a line are those of its indices. -/
lemma mem_points {p : Vec2 Float} :
    p ∈ l.points 0 (l.last.toNat + 1) ↔ ∃ i ≤ l.last, l.point i = p := by
  constructor
  · intro hp
    obtain ⟨k, hk, rfl⟩ := List.mem_map.mp hp
    rw [List.mem_range'_1] at hk
    refine ⟨.ofNat k, ?_, rfl⟩
    rw [UInt64.le_iff_toNat_le, UInt64.toNat_ofNat']
    exact (Nat.mod_le _ _).trans (by omega)
  · rintro ⟨i, hi, rfl⟩
    rw [UInt64.le_iff_toNat_le] at hi
    refine List.mem_map.mpr ⟨i.toNat, ?_, by rw [UInt64.ofNat_toNat]⟩
    rw [List.mem_range'_1]
    omega

/-- The comparison asks for agreement at each point of the line, if there is one. -/
lemma sameFunction_iff_forall : sameFunction axis f g start stop step fixed e = true ↔
    ∃ l, line? axis start stop step fixed = some l ∧
      ∀ i ≤ l.last, agree (f (l.point i)) (g (l.point i)) e = true := by
  rw [sameFunction, sameFunctionM]
  cases line? axis start stop step fixed with
  | none =>
    constructor
    · intro h
      exact absurd h Bool.false_ne_true
    · rintro ⟨l, h, -⟩
      cases h
  | some l =>
    have hall : Id.run (agreeOnM l (fun p => pure (f p)) (fun p => pure (g p)) e) =
        (l.points 0 (l.last.toNat + 1)).all fun p => agree (f p) (g p) e :=
      agreeFromM_pure (l.last.toNat + 1) 0
    simp only [Option.some.injEq, exists_eq_left', hall, List.all_eq_true, mem_points,
      forall_exists_index, and_imp, forall_apply_eq_imp_iff₂]

/-- The comparison of functions is symmetric. -/
lemma sameFunction_comm : sameFunction axis g f start stop step fixed e =
    sameFunction axis f g start stop step fixed e := by
  rw [Bool.eq_iff_iff, sameFunction_iff_forall, sameFunction_iff_forall]
  simp only [agree_comm]

/-- A function that gives numbers on a line is the same as itself there. -/
lemma sameFunction_self (hl : line? axis start stop step fixed = some l) (he : 0.0 ≤ e)
    (hf : ∀ i ≤ l.last, (f (l.point i)).isNaN = false) :
    sameFunction axis f f start stop step fixed e = true :=
  sameFunction_iff_forall.mpr ⟨l, hl, fun i hi => agree_self (hf i hi) he⟩

/-- Functions that are the same within an accuracy are so within a larger one. -/
lemma sameFunction_mono (he : e ≤ e')
    (h : sameFunction axis f g start stop step fixed e = true) :
    sameFunction axis f g start stop step fixed e' = true := by
  obtain ⟨l, hl, hall⟩ := sameFunction_iff_forall.mp h
  exact sameFunction_iff_forall.mpr ⟨l, hl, fun i hi => agree_mono he (hall i hi)⟩

end Lines

/--
Agreement is symmetric, it does not see a sign given to both values, every value but NaN agrees with itself
where the accuracy is not negative, and what agrees also agrees where more is allowed. The comparison of
functions has these laws along either axis: it is symmetric in the two functions, a function is the same as
itself where it is NaN at no point of the line, and it is monotone in the accuracy.
-/
theorem agree_laws :
    (∀ a b e : Float, agree a b e = agree b a e ∧ agree a b e = agree (-a) (-b) e) ∧
    (∀ a e : Float, a.isNaN = false → 0.0 ≤ e → agree a a e = true) ∧
    (∀ a b e e' : Float, e ≤ e' → agree a b e = true → agree a b e' = true) ∧
    ∀ (axis : Axis) (f g : Vec2 Float → Float) (start stop step fixed : Float),
      (∀ e, sameFunction axis f g start stop step fixed e =
        sameFunction axis g f start stop step fixed e) ∧
      (∀ e l, line? axis start stop step fixed = some l → 0.0 ≤ e →
        (∀ i ≤ l.last, (f (l.point i)).isNaN = false) →
          sameFunction axis f f start stop step fixed e = true) ∧
      ∀ e e', e ≤ e' → sameFunction axis f g start stop step fixed e = true →
        sameFunction axis f g start stop step fixed e' = true := by
  refine ⟨fun a b e => ⟨agree_comm, agree_neg.symm⟩, fun a e => agree_self,
    fun a b e e' => agree_mono, ?_⟩
  intro axis f g start stop step fixed
  exact ⟨fun e => sameFunction_comm, fun e l => sameFunction_self, fun e e' => sameFunction_mono⟩

/-- The line of the quarters up to one. -/
def quarters : Line :=
  ⟨.y, 0.0, 0.25, 0.0, 4⟩

/-- There is a line from 0 to 1 in steps of a quarter. -/
lemma line?_quarters : line? .y 0.0 1.0 0.25 0.0 = some quarters :=
  line?_eq_some_iff.mpr ⟨4, ⟨by decide +kernel, by decide +kernel, by decide +kernel,
    by decide +kernel, by decide +kernel, by norm_num⟩, rfl⟩

/--
Both the difference and the tolerance may overflow, and still more accuracy allowed is no less agreement; a
function without NaN is the same as itself even where no difference is allowed.
-/
theorem overflowing_agree_laws :
    agree 1.7e308 (-1.7e308) 1.5 = true ∧ (1.5 : Float) ≤ 2.0 ∧
      agree 1.7e308 (-1.7e308) 2.0 = true ∧
    line? .y 0.0 1.0 0.25 0.0 = some quarters ∧
      sameFunction .y (fun p => 1.0 / p.y) (fun p => 1.0 / p.y) 0.0 1.0 0.25 0.0 0.0 = true := by
  obtain ⟨-, -, hmono, hsame⟩ := agree_laws
  have h : agree 1.7e308 (-1.7e308) 1.5 = true := by decide +kernel
  have he : (1.5 : Float) ≤ 2.0 := by decide +kernel
  have hnan : ∀ i ≤ quarters.last, (1.0 / (quarters.point i).y).isNaN = false := by
    intro i hi
    have hi4 : i.toNat ≤ 4 := UInt64.le_iff_toNat_le.mp hi
    obtain ⟨k, hk, rfl⟩ : ∃ k ≤ 4, i = .ofNat k := ⟨i.toNat, hi4, by rw [UInt64.ofNat_toNat]⟩
    interval_cases k <;> decide +kernel
  exact ⟨h, he, hmono _ _ _ _ he h, line?_quarters,
    (hsame .y _ (fun _ => 0.0) 0.0 1.0 0.25 0.0).2.1 0.0 _ line?_quarters (by decide +kernel) hnan⟩

end Sampling
end PlanarNewton
