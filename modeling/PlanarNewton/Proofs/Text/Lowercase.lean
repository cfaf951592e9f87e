import Mathlib
import PlanarNewton.Text.Lowercase

/-!
# Lower case and ASCII

Lower-casing looks at all of Unicode, and two characters outside ASCII have ASCII in their small forms:
the Kelvin sign becomes a `k`, and the capital dotted I becomes an `i` with a combining dot. No other run
of the table leads into ASCII (`isBeyondAscii_or_kelvin`). So where the lower-case form is ASCII without a
`k`, the text was ASCII before (`lt_of_lowercaseAfter`), and in ASCII lower-casing changes the letters `A`
to `Z` and nothing else (`lowercaseAfter_of_lt`). Main statement: `lowercase_eq_iff`.
-/

namespace PlanarNewton.Text

/-- An ASCII character that only ASCII characters have as their small form: any but the `k`. -/
def IsAsciiOnly (c : Char) : Prop :=
  c.toNat < 128 ∧ c ≠ 'k'

/-- It can be decided whether a character is one of these. -/
instance (c : Char) : Decidable (IsAsciiOnly c) :=
  inferInstanceAs (Decidable (_ ∧ _))

namespace CaseRun

variable {r : CaseRun} {n : Nat}

/-- The run leads from characters beyond ASCII to characters beyond ASCII, and to no surrogate. -/
def IsBeyondAscii (r : CaseRun) : Prop :=
  128 ≤ r.first ∧
    (128 ≤ r.first + r.shift ∧ r.last + r.shift < 0xD800 ∨
      0xDFFF < r.first + r.shift ∧ r.last + r.shift < 0x110000)

/-- It can be decided whether a run is one of these. -/
instance (r : CaseRun) : Decidable r.IsBeyondAscii :=
  inferInstanceAs (Decidable (_ ∧ _))

/-- A character that is covered lies between the ends of the run. -/
lemma le_of_covers (h : r.covers n = true) : r.first ≤ n ∧ n ≤ r.last := by
  rw [covers, Bool.and_eq_true, Bool.and_eq_true] at h
  exact ⟨of_decide_eq_true h.1.1, of_decide_eq_true h.1.2⟩

/-- Such a run leads to characters beyond ASCII. -/
lemma IsBeyondAscii.le_toNat (hr : r.IsBeyondAscii) (h : r.covers n = true) :
    128 ≤ (Char.ofNat (n + r.shift).toNat).toNat := by
  obtain ⟨hfirst, hlast⟩ := le_of_covers h
  obtain ⟨-, hshift⟩ := hr
  have hvalid : (n + r.shift).toNat.isValidChar := by
    unfold Nat.isValidChar
    omega
  rw [Char.toNat_ofNat, if_pos hvalid]
  omega

end CaseRun

/-- After the letters `A` to `Z`, only the run of the Kelvin sign leads into ASCII. -/
lemma isBeyondAscii_or_kelvin : ∀ r ∈ smallLetters.tail,
    r.IsBeyondAscii ∨ r.first = 0x212A ∧ r.last = 0x212A ∧ r.shift = -8383 := by
  decide +kernel

/-- The upper-case letters of ASCII, by their numbers. -/
lemma isUpper_iff {c : Char} : c.isUpper = true ↔ 0x41 ≤ c.toNat ∧ c.toNat ≤ 0x5A := by
  simp [Char.isUpper, UInt32.le_iff_toNat_le]

/-- The letters `A` to `Z` stay in ASCII, and nothing else is changed. -/
lemma lt_of_toLower {c : Char} (h : c.toLower.toNat < 128) : c.toNat < 128 := by
  by_cases hu : c.isUpper = true
  · exact (isUpper_iff.mp hu).2.trans_lt (by decide)
  · rw [Char.toLower_eq_of_not_isUpper hu] at h
    exact h

/-- A character is lower-cased as in ASCII, or it is beyond ASCII and its small form is so, too, or a `k`. -/
lemma smallForm_cases (c : Char) :
    smallForm c = c.toLower ∨ 128 ≤ c.toNat ∧ ¬IsAsciiOnly (smallForm c) := by
  unfold smallForm
  split
  case h_1 r hr =>
    have hcovers := List.find?_some hr
    obtain ⟨hfirst, hlast⟩ := CaseRun.le_of_covers hcovers
    -- The first run of the table is the one of the letters `A` to `Z`.
    rcases List.mem_cons.mp (List.mem_of_find?_eq_some hr) with rfl | htail
    · left
      rw [Char.toLower_eq_of_isUpper (isUpper_iff.mpr ⟨hfirst, hlast⟩)]
      rfl
    · right
      obtain hbeyond | ⟨hf, hl, hs⟩ := isBeyondAscii_or_kelvin r htail
      · exact ⟨hbeyond.1.trans hfirst, fun hc => absurd hc.1 (hbeyond.le_toNat hcovers).not_gt⟩
      · have hkelvin : c.toNat = 0x212A := le_antisymm (hl ▸ hlast) (hf ▸ hfirst)
        rw [hkelvin, hs]
        decide
  case h_2 hnone =>
    left
    have hnot := List.find?_eq_none.mp hnone _ List.mem_cons_self
    refine (Char.toLower_eq_of_not_isUpper fun hu => hnot ?_).symm
    obtain ⟨hfirst, hlast⟩ := isUpper_iff.mp hu
    simp [CaseRun.covers, hfirst, hlast, Nat.mod_one]

/-- In ASCII, the small form is the lower-case letter. -/
lemma smallForm_of_lt {c : Char} (h : c.toNat < 128) : smallForm c = c.toLower := by
  obtain hc | ⟨hle, -⟩ := smallForm_cases c
  · exact hc
  · exact absurd h hle.not_gt

/-- Only ASCII characters have such a small form. -/
lemma lt_of_smallForm {c : Char} (h : IsAsciiOnly (smallForm c)) : c.toNat < 128 := by
  obtain hc | ⟨-, hbeyond⟩ := smallForm_cases c
  · rw [hc] at h
    exact lt_of_toLower h.1
  · exact absurd h hbeyond

/-- Both forms of the small sigma are beyond ASCII. -/
lemma le_smallSigma (before after : List Char) : 128 ≤ (smallSigma before after).toNat := by
  unfold smallSigma
  split <;> decide

/-- ASCII is lower-cased letter by letter. -/
lemma lowercaseAfter_of_lt {cs : List Char} (h : ∀ c ∈ cs, c.toNat < 128) (before : List Char) :
    lowercaseAfter before cs = cs.map Char.toLower := by
  induction cs generalizing before with
  | nil => rfl
  | cons c cs ih =>
    obtain ⟨hc, hcs⟩ := List.forall_mem_cons.mp h
    have hsigma : c ≠ 'Σ' := by
      rintro rfl
      exact absurd hc (by decide)
    have hdotted : c ≠ 'İ' := by
      rintro rfl
      exact absurd hc (by decide)
    rw [lowercaseAfter, if_neg hsigma, if_neg hdotted, smallForm_of_lt hc, ih hcs, List.map_cons]

/-- Only ASCII becomes ASCII without a `k`. -/
lemma lt_of_lowercaseAfter {before cs : List Char}
    (h : ∀ d ∈ lowercaseAfter before cs, IsAsciiOnly d) : ∀ c ∈ cs, c.toNat < 128 := by
  induction cs generalizing before with
  | nil => nofun
  | cons c cs ih =>
    rw [lowercaseAfter] at h
    split_ifs at h
    · -- Neither small sigma is ASCII.
      exact absurd (h _ List.mem_cons_self).1 (le_smallSigma before cs).not_gt
    · -- The dot above the `i` is not.
      exact absurd (h '\u0307' (List.mem_cons_of_mem _ List.mem_cons_self)) (by decide)
    · obtain ⟨hc, hcs⟩ := List.forall_mem_cons.mp h
      exact List.forall_mem_cons.mpr ⟨lt_of_smallForm hc, ih hcs⟩

/-- Texts in ASCII are lower-cased letter by letter. -/
lemma lowercase_of_lt {text : String} (h : ∀ c ∈ text.toList, c.toNat < 128) :
    lowercase text = text.toLower := by
  have hlower : text.toLower.toList = text.toList.map Char.toLower := String.toList_map
  rw [← String.toList_inj, hlower, lowercase, String.toList_ofList, lowercaseAfter_of_lt h]

/--
A text has a lower-case form that is ASCII without a `k` exactly if it has this form up to the case of the
letters `A` to `Z`.
-/
theorem lowercase_eq_iff {text small : String} (h : ∀ c ∈ small.toList, IsAsciiOnly c) :
    lowercase text = small ↔ text.toLower = small := by
  constructor
  · rintro rfl
    rw [lowercase, String.toList_ofList] at h
    exact (lowercase_of_lt (lt_of_lowercaseAfter h)).symm
  · rintro rfl
    rw [String.toLower, String.toList_map] at h
    exact lowercase_of_lt fun c hc => lt_of_toLower (h _ (List.mem_map_of_mem hc)).1

-- The Kelvin sign is why the `k` is left out.
example : lowercase "\u212A" = "k" ∧ "\u212A".toLower ≠ "k" := by decide +kernel

end PlanarNewton.Text
