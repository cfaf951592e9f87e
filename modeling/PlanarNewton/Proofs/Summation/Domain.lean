import PlanarNewton.Proofs.Binary64.Bounds
import PlanarNewton.Proofs.Summation.Recurrence

/-!
# The domain of the summation system

Where `a > -1` and `a + b > -1`, as doubles, all recurrences of the master function end
(`Summation.isSome_master?`). The sums that they begin at are rounded, and so is the step aside that the
difference quotients take; but a coordinate moved by this step is at most two less, however large it is
(`Summation.le_shift`), and what is left of the sum is far above `stall`.
-/

namespace PlanarNewton.Summation
open Binary64 Value

/-- The default step of a difference quotient is between zero and one. -/
lemma exists_step : ∃ h, value Difference.defaultStep = .finite h ∧ 0 ≤ h ∧ h ≤ 1 := by
  obtain ⟨h, hh⟩ := exists_finite (x := Difference.defaultStep) (by decide +kernel)
  have h0 : (0.0 : Float) ≤ Difference.defaultStep := by decide +kernel
  have h1 : Difference.defaultStep ≤ 1.0 := by decide +kernel
  rw [le_iff, hh, show value 0.0 = .finite 0 from rfl, finite_le] at h0
  rw [le_iff, hh, value_one, finite_le] at h1
  exact ⟨h, hh, h0, h1⟩

/-- A coordinate moved by the step, ahead or back, is at most two less. -/
lemma le_shift {x : Float} {p : ℚ} (hx : value x = .finite p) :
    (finite (p - 2)).le (value (x + Difference.defaultStep)) = true ∧
      (finite (p - 2)).le (value (x - Difference.defaultStep)) = true := by
  obtain ⟨hp, hl⟩ := finite_spec hx
  obtain ⟨h, hh, h0, h1⟩ := exists_step
  constructor
  · have hle : (finite (p - 2)).le (.finite p) = true := (finite_le _ _).mpr (by linarith)
    rw [value_add, hx, hh]
    exact Value.le_trans hle (le_round hp hl (by linarith))
  · obtain ⟨r, hr, hle⟩ := exists_round_sub hp hl h0 h1
    have hsub : p + -h = p - h := by ring
    rw [value_sub, hx, hh]
    change (finite (p - 2)).le (Value.round (p + -h)) = true
    rwa [hsub, hr, finite_le]

/-- The sum of two coordinates in the domain is at least -1 before it is rounded. -/
lemma neg_one_le_of_lt {x y : Float} {p q : ℚ} (hx : value x = .finite p) (hy : value y = .finite q)
    (h : x + y > -1.0) : -1 ≤ p + q := by
  by_contra! hlt
  rw [gt_iff_lt, lt_iff, value_neg, value_one, value_add, hx, hy] at h
  change (finite (-1)).lt (Value.round (p + q)) = true at h
  rw [Value.round] at h
  split at h
  · have hle := nearest_le_of_le (representable_intCast (n := -1) (by norm_num)) hlt.le
    rw [finite_lt] at h
    push_cast at hle
    linarith
  · rw [signOf, if_pos (by linarith)] at h
    cases h

/-- What is above a small negative number is above `stall`. -/
lemma not_le_stall {x : Float} (h : (finite (-3)).le (value x) = true) : ¬x ≤ stall := by
  intro hx
  rw [le_iff, value_stall] at hx
  have hle := (finite_le _ _).mp (Value.le_trans h hx)
  norm_num at hle

/-- A sum with a coordinate that was moved by at most two is above `stall`, too. -/
lemma add_not_le_stall {x y : Float} {p q : ℚ} (hx : (finite (p - 2)).le (value x) = true)
    (hy : value y = .finite q) (h : -1 ≤ p + q) : ¬x + y ≤ stall ∧ ¬y + x ≤ stall := by
  have hrep : Representable ((-3 : ℤ) : ℚ) := representable_intCast (by norm_num)
  have hlimit : |((-3 : ℤ) : ℚ)| < limit := abs_intCast_lt_limit (by norm_num)
  push_cast at hrep hlimit
  have hle : (finite (-3)).le ((value x).add (value y)) = true :=
    Value.le_add hrep hlimit hx hy (by linarith)
  constructor
  · exact not_le_stall (value_add x y ▸ hle)
  · rw [Value.add_comm] at hle
    exact not_le_stall (value_add y x ▸ hle)

/-- All recurrences of the master function end at the finite points of the domain. -/
theorem isSome_master? {p : Vec2 Float} (hf : p.isFinite = true) (hx : p.x > -1.0)
    (hxy : p.x + p.y > -1.0) : (master? p).isSome := by
  obtain ⟨ha, hb⟩ := Bool.and_eq_true_iff.mp hf
  obtain ⟨a, ha⟩ := exists_finite ha
  obtain ⟨b, hb⟩ := exists_finite hb
  have hab := neg_one_le_of_lt ha hb hxy
  have hba : -1 ≤ b + a := by rwa [add_comm]
  have habove {x : Float} (h : x > -1.0) : ¬x ≤ stall := fun hle =>
    absurd (float_lt_of_lt_of_le h hle) (by decide +kernel)
  have hends : ∀ q ∈ stencil p, ¬q.x + q.y ≤ stall := by
    simp only [stencil, List.forall_mem_cons]
    refine ⟨habove hxy, ?_, ?_, ?_, ?_, List.forall_mem_nil _⟩
    · exact (add_not_le_stall (le_shift ha).1 hb hab).1
    · exact (add_not_le_stall (le_shift ha).2 hb hab).1
    · exact (add_not_le_stall (le_shift hb).1 ha hba).2
    · exact (add_not_le_stall (le_shift hb).2 ha hba).2
  rw [master?_eq, if_neg]
  · rfl
  · rintro (hle | ⟨q, hq, hle⟩)
    · exact habove hx hle
    · exact hends q hq hle

end PlanarNewton.Summation
