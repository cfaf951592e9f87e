import PlanarNewton.Decimal.Layout
import PlanarNewton.Decimal.Reading
import PlanarNewton.Proofs.Binary64.Scientific
import PlanarNewton.Proofs.Binary64.Zero
import PlanarNewton.Proofs.Decimal.Shortest

/-!
# Positional texts are read back

`Numeral` says which texts are unsigned decimals and which numbers they stand for. The reader rounds the
number of a numeral to the nearest double (`Numeral.read`), and the positional layout of a decimal is a
numeral of its exact value (`numeral_positional`). So what is written for a double is read as the same
double, to the bit (`readChars?_positional`): the shortest decimal rounds to it, the sign stands in front,
and the special values have names.
-/

namespace PlanarNewton.Decimal
open Binary64 Float.Model Float.Model.UnpackedFloat

/-- All characters are digits. -/
def AreDigits (cs : List Char) : Prop :=
  ∀ c ∈ cs, c.isDigit = true

/-- The text is an unsigned decimal and stands for the number. -/
inductive Numeral : List Char → ℚ → Prop where
  | whole {ws : List Char} : ws ≠ [] → AreDigits ws → Numeral ws (Nat.ofDigitChars 10 ws 0)
  | point {ws fs : List Char} : ws ≠ [] → AreDigits ws → AreDigits fs →
    Numeral (ws ++ '.' :: fs) (Nat.ofDigitChars 10 (ws ++ fs) 0 / 10 ^ fs.length)

/-- A decimal is read into the double that its exact value rounds to. -/
lemma value_nearest (n : ℕ) (e : ℤ) : value (Decimal.nearest n e) = Value.round (n * 10 ^ e) := by
  cases e with
  | ofNat e => exact value_ofScientific n false e
  | negSucc e => exact value_ofScientific n true (e + 1)

/-- Digits alone are all leading. -/
lemma leadingDigits_of_areDigits {ws : List Char} (h : AreDigits ws) : leadingDigits ws = (ws, []) := by
  rw [leadingDigits, List.takeWhile_eq_self_iff.mpr h, List.dropWhile_eq_nil_iff.mpr h]

/-- The leading digits end at a point. -/
lemma leadingDigits_append_point {ws : List Char} (h : AreDigits ws) (cs : List Char) :
    leadingDigits (ws ++ '.' :: cs) = (ws, '.' :: cs) := by
  rw [leadingDigits, List.takeWhile_append_of_pos h, List.dropWhile_append_of_pos h]
  simp

/-- The reader rounds the number that a numeral stands for. -/
lemma Numeral.unsigned? {cs : List Char} {q : ℚ} (h : Numeral cs q) :
    ∃ x, unsigned? cs = some x ∧ value x = Value.round q := by
  cases h with
  | whole hne hw =>
    refine ⟨Decimal.nearest (number 0 cs) 0, ?_, ?_⟩
    · simp [Decimal.unsigned?, leadingDigits_of_areDigits hw, hne, exponent?, number]
    · rw [value_nearest, zpow_zero, mul_one]
      rfl
  | @point ws fs hne hw hf =>
    refine ⟨Decimal.nearest (number (number 0 ws) fs) (0 - fs.length), ?_, ?_⟩
    · simp [Decimal.unsigned?, leadingDigits_append_point hw, leadingDigits_of_areDigits hf, hne, exponent?]
    · have hnumber : number (number 0 ws) fs = Nat.ofDigitChars 10 (ws ++ fs) 0 :=
        (Nat.ofDigitChars_append 0).symm
      rw [value_nearest, hnumber, zero_sub, zpow_neg, zpow_natCast, div_eq_mul_inv]

/-- A numeral begins with a digit. -/
lemma Numeral.exists_digit {cs : List Char} {q : ℚ} (h : Numeral cs q) :
    ∃ c rest, cs = c :: rest ∧ c.isDigit = true := by
  have key {ws : List Char} (hne : ws ≠ []) (hw : AreDigits ws) (fs : List Char) :
      ∃ c rest, ws ++ fs = c :: rest ∧ c.isDigit = true := by
    obtain ⟨c, rest, rfl⟩ := List.exists_cons_of_ne_nil hne
    exact ⟨c, rest ++ fs, rfl, hw c List.mem_cons_self⟩
  cases h with
  | whole hne hw => simpa using key hne hw []
  | point hne hw hf => exact key hne hw _

/-- A numeral consists of digits and points. -/
lemma Numeral.mem {cs : List Char} {q : ℚ} (h : Numeral cs q) {c : Char} (hc : c ∈ cs) :
    c.isDigit = true ∨ c = '.' := by
  cases h with
  | whole hne hw => exact .inl (hw c hc)
  | point hne hw hf =>
    rcases List.mem_append.mp hc with hc | hc
    · exact .inl (hw c hc)
    · rcases List.mem_cons.mp hc with rfl | hc
      · exact .inr rfl
      · exact .inl (hf c hc)

/-- A digit has no other lower case. -/
lemma toLower_of_isDigit {c : Char} (hc : c.isDigit = true) : c.toLower = c := by
  have hle : c.val ≤ '9'.val := of_decide_eq_true (Bool.and_eq_true_iff.mp hc).2
  have hlt : ¬('A'.val ≤ c.val) := fun h => absurd (UInt32.le_trans h hle) (by decide)
  rw [Char.toLower, dif_neg fun h => hlt h.1]

/-- A digit is none of the other characters. -/
lemma ne_of_isDigit {c d : Char} (hc : c.isDigit = true) (hd : d.isDigit = false) : c ≠ d := by
  rintro rfl
  rw [hc] at hd
  cases hd

/-- What begins with a digit is no name of a special value. -/
lemma magnitude?_of_isDigit {c : Char} (hc : c.isDigit = true) (cs : List Char) :
    magnitude? (c :: cs) = Decimal.unsigned? (c :: cs) := by
  have hn : c ≠ 'n' := ne_of_isDigit hc rfl
  have hi : c ≠ 'i' := ne_of_isDigit hc rfl
  simp [magnitude?, toLower_of_isDigit hc, hn, hi]

/-- A digit is no sign. -/
lemma leadingSign_of_isDigit {c : Char} (hc : c.isDigit = true) (cs : List Char) :
    leadingSign (c :: cs) = (false, c :: cs) := by
  unfold leadingSign
  split
  case h_1 heq => exact absurd (List.cons.inj heq).1 (ne_of_isDigit hc rfl)
  case h_2 heq => exact absurd (List.cons.inj heq).1 (ne_of_isDigit hc rfl)
  case h_3 => rfl

/-- The reader is correctly rounded. -/
theorem Numeral.read {cs : List Char} {q : ℚ} (h : Numeral cs q) :
    ∃ x, value x = Value.round q ∧ readChars? cs = some x ∧ readChars? ('-' :: cs) = some (-x) := by
  obtain ⟨x, hx, hv⟩ := h.unsigned?
  obtain ⟨c, rest, rfl, hc⟩ := h.exists_digit
  refine ⟨x, hv, ?_, ?_⟩
  · rw [readChars?, leadingSign_of_isDigit hc]
    simp [magnitude?_of_isDigit hc, hx]
  · simp [readChars?, leadingSign, magnitude?_of_isDigit hc, hx]

/-- The decimal digits of a number are digits. -/
lemma areDigits_digits (n : ℕ) : AreDigits (digits n) := fun _ hc =>
  Nat.isDigit_of_mem_toDigits (by norm_num) le_rfl hc

/-- Zeros are digits. -/
lemma areDigits_replicate (k : ℕ) : AreDigits (List.replicate k '0') := fun c hc => by
  rw [List.eq_of_mem_replicate hc]
  rfl

/-- Digits behind digits are digits. -/
lemma AreDigits.append {cs ds : List Char} (hc : AreDigits cs) (hd : AreDigits ds) :
    AreDigits (cs ++ ds) := fun c h =>
  (List.mem_append.mp h).elim (hc c) (hd c)

/-- Digits with a point in front of the last of them stand for a fraction of what they say without. -/
lemma numeral_of_places {ds : List Char} {places : ℕ} (hd : AreDigits ds) (h : places < ds.length) :
    Numeral (ds.take (ds.length - places) ++ '.' :: ds.drop (ds.length - places))
      (Nat.ofDigitChars 10 ds 0 / 10 ^ places) := by
  have hne : ds.take (ds.length - places) ≠ [] := by
    rw [← List.length_pos_iff, List.length_take]
    omega
  have hlength : (ds.drop (ds.length - places)).length = places := by
    rw [List.length_drop]
    omega
  have hws : AreDigits (ds.take (ds.length - places)) := fun c hc => hd c (List.mem_of_mem_take hc)
  have hfs : AreDigits (ds.drop (ds.length - places)) := fun c hc => hd c (List.mem_of_mem_drop hc)
  have hpoint := Numeral.point hne hws hfs
  rwa [List.take_append_drop, hlength] at hpoint

/-- The positional layout of a decimal stands for its exact value. -/
theorem numeral_positional (d : Decimal) : Numeral (positional d) d.toRat := by
  have hds := areDigits_digits d.significand
  have hdigits : Nat.ofDigitChars 10 (digits d.significand) 0 = d.significand :=
    Nat.ofDigitChars_ten_toDigits
  have hne : digits d.significand ≠ [] := Nat.toDigits_ne_nil
  unfold positional
  generalize digits d.significand = ds at hds hdigits hne
  simp only
  split_ifs with he
  · -- The zeros behind the digits multiply by a power of ten.
    have hvalue : (Nat.ofDigitChars 10 (ds ++ List.replicate d.exponent.toNat '0') 0 : ℚ) = d.toRat := by
      rw [Nat.ofDigitChars_append, hdigits, Nat.ofDigitChars_replicate_zero, toRat,
        ← Int.toNat_of_nonneg he, Int.toNat_natCast, zpow_natCast, mul_comm]
      push_cast
      rfl
    rw [← hvalue]
    exact .whole (List.append_ne_nil_of_left_ne_nil hne _) (hds.append (areDigits_replicate _))
  · -- The zeros in front of the digits leave at least one of them before the point.
    generalize hplaces : (-d.exponent).toNat = places
    have hvalue : (Nat.ofDigitChars 10 (List.replicate (places + 1 - ds.length) '0' ++ ds) 0 : ℚ) /
        10 ^ places = d.toRat := by
      have hexp : d.exponent = -(places : ℤ) := by omega
      rw [Nat.ofDigitChars_append, Nat.ofDigitChars_replicate_zero, mul_zero, hdigits, toRat, hexp,
        zpow_neg, zpow_natCast, div_eq_mul_inv]
    rw [← hvalue]
    apply numeral_of_places ((areDigits_replicate _).append hds)
    rw [List.length_append, List.length_replicate]
    omega

/-- A double is read back from its positional text. -/
theorem readChars?_positional (x : Float) : readChars? (PlanarNewton.positional x).toList = some x := by
  rw [PlanarNewton.positional, write, String.toList_ofList]
  cases hx : x.toModel.unpack with
  | notANumber => exact congrArg some (eq_ofModel_pack hx).symm
  | infinity s =>
    rw [eq_ofModel_pack hx]
    cases s <;> rfl
  | zero s =>
    rw [eq_ofModel_pack hx]
    cases s <;> rfl
  | finite s m e hm =>
    have hd : Value.IsDouble (.finite s m e hm) := hx ▸ Value.isDouble_unpack x
    obtain ⟨y, hv, hpos, hneg⟩ := (numeral_positional (shortest m e)).read
    rw [eq_of_unpack_finite hx (hv.trans (round_shortest hd))]
    cases s with
    | positive => exact hpos
    | negative => exact hneg

/-- The positional text of a finite double is a numeral behind its sign, and so it has no exponent. -/
lemma exists_numeral {x : Float} (h : x.isFinite = true) :
    ∃ cs q, Numeral cs q ∧
      ((PlanarNewton.positional x).toList = cs ∨ (PlanarNewton.positional x).toList = '-' :: cs) := by
  have hsigned (s : Sign) (cs : List Char) : signed s cs = cs ∨ signed s cs = '-' :: cs := by
    cases s with
    | positive => exact .inl rfl
    | negative => exact .inr rfl
  obtain ⟨q, hq⟩ := exists_finite h
  rw [PlanarNewton.positional, write, String.toList_ofList]
  rcases unpack_of_finite hq with ⟨s, hx, -⟩ | ⟨s, m, e, hm, hx, -⟩
  · rw [hx]
    exact ⟨_, _, numeral_positional ⟨0, 0⟩, hsigned s _⟩
  · rw [hx]
    exact ⟨_, _, numeral_positional (shortest m e), hsigned s _⟩

end PlanarNewton.Decimal
