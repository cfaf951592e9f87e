import Mathlib

/-!
# Packed and unpacked doubles

A double is 64 bits, and it unpacks to a special value or to a signed multiple of a power of two. The
unpacked numbers that doubles have are the canonical ones in range (`Canonical`, `InRange`). Main
statements: `unpack_pack` (a canonical number comes back from its bits, or overflows) and
`unpack_injective` (a double is determined by what it unpacks to).
-/

namespace PlanarNewton.Binary64
open Float.Model Float.Model.UnpackedFloat

section Format
variable {f : Format}

/-- A sign bit is that of the sign it stands for. -/
lemma toBitVec_ofBitVec (b : BitVec 1) : (Sign.ofBitVec b).toBitVec = b := by
  revert b
  decide

/-- A sign is the one that its bit stands for. -/
lemma ofBitVec_toBitVec (s : Sign) : Sign.ofBitVec s.toBitVec = s := by
  cases s <;> rfl

/-- The sign bit of packed components is that of their sign. -/
lemma unpackSign_packComponents {s : Sign} {e : BitVec f.exponentBits}
    {m : BitVec f.mantissaBitsWithoutImplicit} :
    unpackSign (packComponents f s e m) = s.toBitVec := by
  apply BitVec.eq_of_getLsbD_eq
  intro i hi
  obtain rfl : i = 0 := by omega
  simp [unpackSign, packComponents, BitVec.getLsbD_append, BitVec.getElem_append]

/-- The bits of a double are those of its components. -/
lemma packComponents_unpack (b : BitVec f.numBits) :
    packComponents f (Sign.ofBitVec (unpackSign b)) (unpackExponent b) (unpackMantissa b) = b := by
  rw [packComponents, toBitVec_ofBitVec]
  apply BitVec.eq_of_getLsbD_eq
  intro i hi
  have hm := f.hm
  have he := f.he
  -- A bit is in the mantissa, in the exponent, or it is the sign.
  simp only [unpackSign, unpackExponent, unpackMantissa, BitVec.getLsbD_append, BitVec.getLsbD_cast,
    BitVec.getLsbD_extractLsb]
  by_cases h1 : i < f.mantissaBitsWithoutImplicit
  · simp [h1]
    omega
  · by_cases h2 : i - f.mantissaBitsWithoutImplicit < f.exponentBits
    · have h : f.mantissaBitsWithoutImplicit + (i - f.mantissaBitsWithoutImplicit) = i := by omega
      simp [h1, h2, h]
      omega
    · have h : f.mantissaBitsWithoutImplicit + f.exponentBits +
          (i - f.mantissaBitsWithoutImplicit - f.exponentBits) = i := by omega
      simp [h1, h2, h]
      omega

end Format

/-- The exponent is the one that a double of this magnitude has: 53 bits, or the least exponent. -/
def Canonical : UnpackedFloat → Prop
  | .finite _ m e _ => m < 2 ^ 53 ∧ -1074 ≤ e ∧ (2 ^ 52 ≤ m ∨ e = -1074)
  | _ => True

/-- The exponent is not beyond that of the largest double. -/
def InRange : UnpackedFloat → Prop
  | .finite _ _ e _ => e ≤ 971
  | _ => True

/-- What remains of a canonical number as a double: beyond the largest exponent, only its sign. -/
def clamp : UnpackedFloat → UnpackedFloat
  | .finite s m e h => if e ≤ 971 then .finite s m e h else .infinity s
  | u => u

/-- What is in range is not clamped. -/
lemma clamp_of_inRange {u : UnpackedFloat} (h : InRange u) : clamp u = u := by
  cases u with
  | finite s m e hm => exact if_pos h
  | _ => rfl

/-- The three ways to pack a finite number, with the bias of the exponent written out. -/
lemma pack_finite (s : Sign) {m : Nat} (e : Int) (hm : 0 < m) :
    UnpackedFloat.pack Format.binary64 (.finite s m e hm) =
      if 2047 ≤ (e + 1075).toNat then packedInfinity Format.binary64 s
      else if m.log2 = 52 then
        packComponents Format.binary64 s (BitVec.ofNat 11 (e + 1075).toNat) (BitVec.ofNat 52 m)
      else packComponents Format.binary64 s 0#11 (BitVec.ofNat 52 m) := by
  have h : (e + 1075 : Int) = e + 1023 + 52 := by omega
  have hr : 2047 ≤ (e + 1023 + 52).toNat ↔ 2 ^ 11 ≤ (e + 1023 + 52).toNat + 1 := by omega
  have hl : m.log2 = 52 ↔ m.log2 + 1 = 53 := by omega
  rw [h]
  simp only [hr, hl]
  rfl

/-- A number with all 53 bits of its mantissa is packed with a biased exponent. -/
lemma pack_normal (s : Sign) {m : Nat} {e : Int} (hm : 0 < m) (hl : 2 ^ 52 ≤ m) (hu : m < 2 ^ 53)
    (he : e ≤ 971) :
    UnpackedFloat.pack Format.binary64 (.finite s m e hm) =
      packComponents Format.binary64 s (BitVec.ofNat 11 (e + 1075).toNat) (BitVec.ofNat 52 m) := by
  rw [pack_finite, if_neg (by omega), if_pos ((Nat.log2_eq_iff hm.ne').mpr ⟨hl, hu⟩)]

/-- A number with fewer bits, at the least exponent, is packed as a subnormal double. -/
lemma pack_subnormal (s : Sign) {m : Nat} (hm : 0 < m) (hu : m < 2 ^ 52) :
    UnpackedFloat.pack Format.binary64 (.finite s m (-1074) hm) =
      packComponents Format.binary64 s 0#11 (BitVec.ofNat 52 m) := by
  have hlog := (Nat.log2_lt hm.ne').mpr hu
  rw [pack_finite, if_neg (by omega), if_neg (by omega)]

/-- A number whose exponent is too large is packed as infinity. -/
lemma pack_overflow (s : Sign) {m : Nat} {e : Int} (hm : 0 < m) (he : 971 < e) :
    UnpackedFloat.pack Format.binary64 (.finite s m e hm) = packedInfinity Format.binary64 s := by
  rw [pack_finite, if_pos (by omega)]

/-- The leading bit that the mantissa field leaves out. -/
lemma toNat_implicit (m : BitVec 52) : (1#1 ++ m).toNat = 2 ^ 52 + m.toNat := by
  rw [BitVec.toNat_append, ← Nat.shiftLeft_add_eq_or_of_lt m.isLt]
  simp [Nat.shiftLeft_eq]

/-- The bits of infinity unpack to infinity. -/
lemma unpack_packedInfinity (s : Sign) :
    UnpackedFloat.unpack Format.binary64 (packedInfinity Format.binary64 s) = .infinity s := by
  cases s <;> rfl

/-- The bits of a normal double unpack to its mantissa and its exponent. -/
lemma unpack_normal (s : Sign) {m : Nat} {e : Int} (hm : 0 < m) (hl : 2 ^ 52 ≤ m) (hu : m < 2 ^ 53)
    (he : -1074 ≤ e) (hr : e ≤ 971) :
    UnpackedFloat.unpack Format.binary64 (packComponents Format.binary64 s
      (BitVec.ofNat 11 (e + 1075).toNat) (BitVec.ofNat 52 m)) = .finite s m e hm := by
  have hexp : (BitVec.ofNat 11 (e + 1075).toNat).toNat = (e + 1075).toNat := by
    rw [BitVec.toNat_ofNat, Nat.mod_eq_of_lt (by omega)]
  have h0 : BitVec.ofNat 11 (e + 1075).toNat ≠ 0#11 := by
    intro h
    rw [h] at hexp
    simp only [BitVec.toNat_ofNat, Nat.zero_mod] at hexp
    omega
  have h1 : BitVec.ofNat 11 (e + 1075).toNat ≠ -1#11 := by
    intro h
    rw [h] at hexp
    have : (-1#11).toNat = 2047 := rfl
    omega
  have hmant : (1#1 ++ BitVec.ofNat 52 m).toNat = m := by
    rw [toNat_implicit, BitVec.toNat_ofNat]
    omega
  simp only [UnpackedFloat.unpack, unpackExponent_packComponents, unpackMantissa_packComponents,
    unpackSign_packComponents, ofBitVec_toBitVec]
  rw [if_neg h1, if_neg h0]
  congr 1
  rw [hexp]
  show ((e + 1075).toNat : Int) - (1023 + 52) = e
  omega

/-- The bits of a subnormal double unpack to its mantissa at the least exponent. -/
lemma unpack_subnormal (s : Sign) {m : Nat} (hm : 0 < m) (hu : m < 2 ^ 52) :
    UnpackedFloat.unpack Format.binary64 (packComponents Format.binary64 s 0#11 (BitVec.ofNat 52 m)) =
      .finite s m (-1074) hm := by
  have hmant : (BitVec.ofNat 52 m).toNat = m := by
    rw [BitVec.toNat_ofNat, Nat.mod_eq_of_lt hu]
  have h0 : BitVec.ofNat 52 m ≠ 0#52 := by
    intro h
    rw [h] at hmant
    exact hm.ne hmant
  have h1 : ¬ 0#11 = -1#11 := by decide
  simp only [UnpackedFloat.unpack, unpackExponent_packComponents, unpackMantissa_packComponents,
    unpackSign_packComponents, ofBitVec_toBitVec]
  simp only [h1, h0, if_false, if_true, dif_neg, not_false_eq_true]
  congr 1

/-- A canonical number comes back from its bits, except that overflow leaves only the sign. -/
lemma unpack_pack {u : UnpackedFloat} (h : Canonical u) : (Float.Model.pack u).unpack = clamp u := by
  show UnpackedFloat.unpack Format.binary64 (UnpackedFloat.pack Format.binary64 u) = clamp u
  cases u with
  | notANumber => rfl
  | infinity s => exact unpack_packedInfinity s
  | zero s => cases s <;> rfl
  | finite s m e hm =>
    obtain ⟨hu, hl, hc⟩ := h
    by_cases he : e ≤ 971
    · rw [clamp, if_pos he]
      by_cases hn : 2 ^ 52 ≤ m
      · rw [pack_normal s hm hn hu he]
        exact unpack_normal s hm hn hu hl he
      · obtain rfl := hc.resolve_left hn
        rw [pack_subnormal s hm (by omega)]
        exact unpack_subnormal s hm (by omega)
    · rw [clamp, if_neg he, pack_overflow s hm (by omega)]
      exact unpack_packedInfinity s

/-- Every double is packed from a canonical number in range. -/
lemma exists_pack (x : Float.Model) : ∃ u, Canonical u ∧ InRange u ∧ Float.Model.pack u = x := by
  obtain ⟨bits, valid⟩ := x
  have hb := packComponents_unpack (f := Format.binary64) bits.toBitVec
  have hnan := valid.eq_packedNaN
  generalize Sign.ofBitVec (@unpackSign Format.binary64 bits.toBitVec) = s at hb
  generalize @unpackExponent Format.binary64 bits.toBitVec = e at hb hnan
  generalize @unpackMantissa Format.binary64 bits.toBitVec = m at hb hnan
  suffices h : ∃ u, Canonical u ∧ InRange u ∧
      UnpackedFloat.pack Format.binary64 u = bits.toBitVec by
    obtain ⟨u, hc, hr, hu⟩ := h
    refine ⟨u, hc, hr, ?_⟩
    simp only [Float.Model.pack, hu]
  have hm : m.toNat < 2 ^ 52 := m.isLt
  have he : e.toNat < 2 ^ 11 := e.isLt
  -- All ones in the exponent field are special, none are the subnormal numbers and the zeros.
  by_cases h1 : e = -1#11
  · by_cases h2 : m = 0#52
    · refine ⟨.infinity s, trivial, trivial, ?_⟩
      rw [← hb, h1, h2]
      rfl
    · exact ⟨.notANumber, trivial, trivial, (hnan h1 h2).symm⟩
  · by_cases h0 : e = 0#11
    · by_cases h2 : m = 0#52
      · refine ⟨.zero s, trivial, trivial, ?_⟩
        rw [← hb, h0, h2]
        rfl
      · have hpos : 0 < m.toNat := Nat.pos_of_ne_zero fun h => h2 (BitVec.eq_of_toNat_eq h)
        refine ⟨.finite s m.toNat (-1074) hpos, ⟨by omega, le_rfl, .inr rfl⟩,
          by show _ ≤ _; omega, ?_⟩
        rw [pack_subnormal s hpos hm, ← hb, h0, BitVec.ofNat_toNat]
        rfl
    · have hlo : e.toNat ≠ 0 := fun h => h0 (BitVec.eq_of_toNat_eq h)
      have hhi : e.toNat ≠ 2047 := fun h => h1 (BitVec.eq_of_toNat_eq h)
      refine ⟨.finite s (2 ^ 52 + m.toNat) (e.toNat - 1075) (by omega),
        ⟨by omega, by omega, .inl (by omega)⟩, by show _ ≤ _; omega, ?_⟩
      have hexp : BitVec.ofNat 11 ((e.toNat : Int) - 1075 + 1075).toNat = e := by
        apply BitVec.eq_of_toNat_eq
        rw [BitVec.toNat_ofNat]
        omega
      have hmant : BitVec.ofNat 52 (2 ^ 52 + m.toNat) = m := by
        apply BitVec.eq_of_toNat_eq
        rw [BitVec.toNat_ofNat]
        omega
      rw [pack_normal s _ (by omega) (by omega) (by omega), hexp, hmant, hb]

/-- What is packed unpacks again, if it is canonical and in range. -/
lemma unpack_of_pack {x : Float.Model} {u : UnpackedFloat} (hc : Canonical u) (hr : InRange u)
    (h : Float.Model.pack u = x) : x.unpack = u := by
  rw [← h, unpack_pack hc, clamp_of_inRange hr]

/-- The components of a double are canonical. -/
lemma canonical_unpack (x : Float.Model) : Canonical x.unpack := by
  obtain ⟨u, hc, hr, h⟩ := exists_pack x
  rwa [unpack_of_pack hc hr h]

/-- The components of a double are in range. -/
lemma inRange_unpack (x : Float.Model) : InRange x.unpack := by
  obtain ⟨u, hc, hr, h⟩ := exists_pack x
  rwa [unpack_of_pack hc hr h]

/-- The components of a double pack to the double. -/
lemma pack_unpack (x : Float.Model) : Float.Model.pack x.unpack = x := by
  obtain ⟨u, hc, hr, h⟩ := exists_pack x
  rwa [unpack_of_pack hc hr h]

/-- A double is determined by what it unpacks to. -/
lemma unpack_injective : Function.Injective Float.Model.unpack := by
  intro x y h
  rw [← pack_unpack x, h, pack_unpack]

end PlanarNewton.Binary64
