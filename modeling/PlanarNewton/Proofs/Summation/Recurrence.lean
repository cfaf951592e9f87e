import PlanarNewton.Proofs.Binary64.Increment
import PlanarNewton.Summation.Objectives

/-!
# Where the recurrences end

The recurrence of the polygamma functions ends after finitely many turns exactly if its argument is not
below `Binary64.stall` (`Polygamma.ends_iff`). Below it, no turn leads out; above it, every turn adds at
least one to an integer below the argument, which therefore reaches the threshold. The closed forms of the
summation system have a value exactly if the arguments that they hand on do (`Summation.return_iff`):
each of them is written down again here with the recurrence that may not end.
-/

namespace PlanarNewton
open Binary64 Value

/-- A value that is there unless a condition holds. -/
lemma eq_ite_of_isSome {α : Type} {o : Option α} {p : Prop} [Decidable p] (h : o.isSome ↔ ¬p)
    (d : α) : o = if p then none else some (o.getD d) := by
  split
  · exact Option.not_isSome_iff_eq_none.mp fun hs => h.mp hs ‹_›
  · obtain ⟨v, rfl⟩ := Option.isSome_iff_exists.mp (h.mpr ‹_›)
    rfl

/-- What goes on with a value that may be missing is missing with it. -/
lemma bind_ite {α β : Type} {p : Prop} [Decidable p] (a : α) (f : α → Option β) :
    ((if p then none else some a) >>= f) = if p then none else f a := by
  split <;> rfl

namespace Polygamma

/-- Finitely many ones, added one after another, lead to the threshold. -/
def Ends (x : Float) : Prop :=
  ∃ n : ℕ, ¬(· + 1.0)^[n] x < threshold

variable {term : Float → Float → Float} {x : Float}

/-- The value of the threshold. -/
lemma value_threshold : value threshold = .finite 10 :=
  value_ten

/-- From an argument ends what ends after adding one. -/
lemma Ends.of_add_one (h : Ends (x + 1.0)) : Ends x := by
  obtain ⟨n, hn⟩ := h
  exact ⟨n + 1, hn⟩

/-- Below the threshold, the recurrence takes a term. -/
lemma climb_of_lt (h : x < threshold) (sum : Float) :
    climb term sum x = climb term (term sum x) (x + 1.0) := by
  rw [climb, Climb.finish, if_pos h]
  rfl

/-- From the threshold on, the recurrence ends. -/
lemma climb_of_not_lt (h : ¬x < threshold) (sum : Float) : climb term sum x = some (sum, x) := by
  rw [climb, Climb.finish, if_neg h]
  rfl

/-- The recurrence has a result exactly if it ends. -/
theorem isSome_climb (term : Float → Float → Float) (sum x : Float) :
    (climb term sum x).isSome ↔ Ends x := by
  constructor
  · intro h
    rw [climb, Option.isSome_map] at h
    obtain ⟨r, hr⟩ := Option.isSome_iff_exists.mp h
    -- By induction on the turns of the recurrence, the last of which found the threshold reached.
    refine Climb.finish.partial_correctness term (fun c _ => Ends c.x) ?_ ⟨sum, x⟩ r hr
    intro finish ih c r hr
    split at hr
    · exact (ih _ _ hr).of_add_one
    · exact ⟨0, ‹_›⟩
  · rintro ⟨n, hn⟩
    induction n generalizing sum x with
    | zero =>
      change ¬x < threshold at hn
      rw [climb_of_not_lt hn]
      rfl
    | succ n ih =>
      by_cases hx : x < threshold
      · rw [climb_of_lt hx]
        exact ih _ _ hn
      · rw [climb_of_not_lt hx]
        rfl

/-- What is below `stall` is below the threshold. -/
lemma lt_threshold_of_le_stall (h : x ≤ stall) : x < threshold := by
  rw [lt_iff, value_threshold]
  rw [le_iff, value_stall] at h
  cases hx : value x with
  | nan =>
    rw [hx] at h
    cases h
  | infinite s =>
    rw [hx] at h
    cases s with
    | negative => rfl
    | positive => cases h
  | finite q =>
    rw [hx, finite_le] at h
    rw [finite_lt]
    linarith

/-- So many ones that lead up to ten. -/
lemma ends_of_le {k : ℕ} (hk : k ≤ 2 ^ 53 + 10) {q : ℚ} (hx : value x = .finite q)
    (hq : 10 - k ≤ q) : Ends x := by
  induction k generalizing x q with
  | zero =>
    refine ⟨0, fun h => ?_⟩
    change x < threshold at h
    rw [lt_iff, hx, value_threshold, finite_lt] at h
    norm_num at hq
    linarith
  | succ k ih =>
    by_cases h : x < threshold
    · rw [lt_iff, hx, value_threshold, finite_lt] at h
      have hk' : (k : ℚ) + 1 ≤ 2 ^ 53 + 10 := by exact_mod_cast hk
      push_cast at hq
      obtain ⟨r, hr, -, hstep⟩ := exists_add_one hx (by linarith) h
      -- The integer ten less `k + 1` lies below, and grows to ten less `k`.
      have hr' := hstep (10 - (k + 1)) (by omega) (by push_cast; linarith)
      push_cast at hr'
      exact (ih (Nat.le_of_succ_le hk) hr (by linarith)).of_add_one
    · exact ⟨0, h⟩

/-- The recurrence ends exactly if its argument is not below `stall`. -/
theorem ends_iff : Ends x ↔ ¬x ≤ stall := by
  constructor
  · rintro ⟨n, hn⟩ h
    refine hn (lt_threshold_of_le_stall ?_)
    clear hn
    induction n generalizing x with
    | zero => exact h
    | succ n ih => exact ih (add_one_le_stall h)
  · intro h
    by_cases hlt : x < threshold
    · rw [lt_iff, value_threshold] at hlt
      rw [le_iff, value_stall] at h
      cases hx : value x with
      | nan =>
        rw [hx] at hlt
        cases hlt
      | infinite s =>
        rw [hx] at hlt h
        cases s with
        | negative => exact absurd rfl h
        | positive => cases hlt
      | finite q =>
        rw [hx, finite_lt] at hlt
        rw [hx, finite_le, not_le] at h
        -- One turn leads to `-2 ^ 53` at least, and from there on all of them lead up.
        obtain ⟨r, hr, hlow, -⟩ := exists_add_one hx h hlt
        exact (ends_of_le le_rfl hr (by push_cast; linarith)).of_add_one
    · exact ⟨0, hlt⟩

/-- The digamma function is computed above `stall`. -/
lemma isSome_digamma? (x : Float) : (digamma? x).isSome ↔ ¬x ≤ stall := by
  rw [digamma?, Option.isSome_map, isSome_climb, ends_iff]

/-- The trigamma function is computed above `stall`. -/
lemma isSome_trigamma? (x : Float) : (trigamma? x).isSome ↔ ¬x ≤ stall := by
  rw [trigamma?, Option.isSome_map, isSome_climb, ends_iff]

/-- The digamma function has a value exactly if its argument is not below `stall`. -/
lemma digamma?_eq (x : Float) : digamma? x = if x ≤ stall then none else some (digamma x) :=
  eq_ite_of_isSome (isSome_digamma? x) Binary64.nan

/-- The trigamma function, where its recurrence ends. -/
lemma trigamma?_eq (x : Float) : trigamma? x = if x ≤ stall then none else some (trigamma x) :=
  eq_ite_of_isSome (isSome_trigamma? x) Binary64.nan

end Polygamma

/-- The difference quotient of a function that may have no value. -/
def centralDifference? (axis : Axis) (step : Float) (f : Vec2 Float → Option Float)
    (p : Vec2 Float) : Option Float := do
  let ahead ← f (axis.shift p step)
  let behind ← f (axis.shiftBack p step)
  return (ahead - behind) / (Scalar.two * step)

namespace Summation
open Polygamma

/-- The first objective in closed form, where its recurrences end. -/
def objective1Closed? (p : Vec2 Float) : Option Float := do
  let upper ← digamma? (p.x + termsFloat + 1.0)
  let lower ← digamma? (p.x + 1.0)
  return p.y * (upper - lower) - c1

/-- The second objective in closed form, where its recurrences end. -/
def objective2Closed? (p : Vec2 Float) : Option Float := do
  let lower ← trigamma? (p.x + p.y + 1.0)
  let upper ← trigamma? (p.x + p.y + termsFloat + 1.0)
  return lower - upper - c2

/-- The derivative of the first objective by `a`, where its recurrences end. -/
def derivative11Closed? (p : Vec2 Float) : Option Float := do
  let upper ← trigamma? (p.x + termsFloat + 1.0)
  let lower ← trigamma? (p.x + 1.0)
  return p.y * (upper - lower)

/-- The derivative of the first objective by `b`, where its recurrences end. -/
def derivative12Closed? (p : Vec2 Float) : Option Float := do
  let upper ← digamma? (p.x + termsFloat + 1.0)
  let lower ← digamma? (p.x + 1.0)
  return upper - lower

/-- All evaluations of the recurrence that the master function makes, in order. -/
def master? (p : Vec2 Float) : Option (Evaluation Float) := do
  let upper0 ← digamma? (p.x + termsFloat + 1.0)
  let lower0 ← digamma? (p.x + 1.0)
  let lower1 ← trigamma? (p.x + p.y + 1.0)
  let upper1 ← trigamma? (p.x + p.y + termsFloat + 1.0)
  let upper2 ← trigamma? (p.x + termsFloat + 1.0)
  let lower2 ← trigamma? (p.x + 1.0)
  let gx ← centralDifference? .x Difference.defaultStep objective2Closed? p
  let gy ← centralDifference? .y Difference.defaultStep objective2Closed? p
  return {
    objective := ⟨p.y * (upper0 - lower0) - c1, lower1 - upper1 - c2⟩
    jacobian := ⟨p.y * (upper2 - lower2), upper0 - lower0, gx, gy⟩ }

/-- The points at which the master function asks for the second sum. -/
def stencil (p : Vec2 Float) : List (Vec2 Float) :=
  [p, Axis.x.shift p Difference.defaultStep, Axis.x.shiftBack p Difference.defaultStep,
    Axis.y.shift p Difference.defaultStep, Axis.y.shiftBack p Difference.defaultStep]

/-- The value of the number of terms. -/
lemma value_termsFloat : value termsFloat = .finite 123456 := by
  have h : termsFloat.toModel.unpack =
      .finite .positive (123456 * 2 ^ 36) (-36) (by norm_num) := rfl
  rw [value_of_unpack h, signed_positive]
  norm_num

/-- Adding one does not lead across `stall`. -/
lemma add_one_le_stall_iff {x : Float} : x + 1.0 ≤ stall ↔ x ≤ stall :=
  ⟨le_stall_of_add value_one zero_le_one, add_one_le_stall⟩

/-- The upper argument is above `stall` if the lower one is. -/
lemma le_stall_of_terms {x : Float} (h : x + termsFloat + 1.0 ≤ stall) : x ≤ stall :=
  le_stall_of_add value_termsFloat (by norm_num) (add_one_le_stall_iff.mp h)

/-- Of the two ends of a sum, the lower one decides. -/
lemma ends_le_stall_iff {x : Float} :
    x + termsFloat + 1.0 ≤ stall ∨ x + 1.0 ≤ stall ↔ x ≤ stall :=
  ⟨fun h => h.elim le_stall_of_terms add_one_le_stall_iff.mp, fun h => .inr (add_one_le_stall h)⟩

/-- Both arguments of a closed form are above `stall` if the coordinate is. -/
lemma begins_le_stall_iff {x : Float} :
    x + 1.0 ≤ stall ∨ x + termsFloat + 1.0 ≤ stall ↔ x ≤ stall :=
  or_comm.trans ends_le_stall_iff

/-- The first objective has a value where `a` is above `stall`. -/
lemma objective1Closed?_eq (p : Vec2 Float) :
    objective1Closed? p = if p.x ≤ stall then none else some (objective1Closed p) := by
  simp only [objective1Closed?, digamma?_eq, bind_ite, ← ite_or, ends_le_stall_iff]
  rfl

/-- The second objective has a value where `a + b` is above `stall`. -/
lemma objective2Closed?_eq (p : Vec2 Float) :
    objective2Closed? p = if p.x + p.y ≤ stall then none else some (objective2Closed p) := by
  simp only [objective2Closed?, trigamma?_eq, bind_ite, ← ite_or, begins_le_stall_iff]
  rfl

/-- The derivative of the first objective by `a` has a value where `a` is above `stall`. -/
lemma derivative11Closed?_eq (p : Vec2 Float) :
    derivative11Closed? p = if p.x ≤ stall then none else some (derivative11Closed p) := by
  simp only [derivative11Closed?, trigamma?_eq, bind_ite, ← ite_or, ends_le_stall_iff]
  rfl

/-- The derivative of the first objective by `b` has a value where `a` is above `stall`. -/
lemma derivative12Closed?_eq (p : Vec2 Float) :
    derivative12Closed? p = if p.x ≤ stall then none else some (derivative12Closed p) := by
  simp only [derivative12Closed?, digamma?_eq, bind_ite, ← ite_or, ends_le_stall_iff]
  rfl

/-- The difference quotient has a value where both of its points have one. -/
lemma centralDifference?_eq (axis : Axis) (step : Float) (p : Vec2 Float) :
    centralDifference? axis step objective2Closed? p =
      if (axis.shift p step).x + (axis.shift p step).y ≤ stall ∨
        (axis.shiftBack p step).x + (axis.shiftBack p step).y ≤ stall then none
      else some (centralDifference axis step objective2Closed p) := by
  simp only [centralDifference?, objective2Closed?_eq, bind_ite, ← ite_or]
  rfl

/-- One missing value is enough, and there are two sums over `p.x` and five over `p.x + p.y`. -/
lemma master?_eq (p : Vec2 Float) :
    master? p = if p.x ≤ stall ∨ ∃ q ∈ stencil p, q.x + q.y ≤ stall then none
      else some (master p) := by
  simp only [master?, digamma?_eq, trigamma?_eq, centralDifference?_eq, bind_ite, ← ite_or]
  refine if_congr ?_ rfl rfl
  simp only [stencil, List.exists_mem_cons_iff, List.not_mem_nil, false_and, exists_false, or_false]
  rw [← ends_le_stall_iff (x := p.x), ← begins_le_stall_iff (x := p.x + p.y)]
  simp only [or_assoc, or_left_comm, or_comm, or_self_left]

/--
The recurrence has a result exactly if finitely many ones lead from its argument to the threshold, and
they do so exactly if the argument is not below `stall`. So the polygamma functions have a value there
and nowhere else, and the closed forms and the master function have one at a point exactly if the sums
that they begin at do not lie below.
-/
theorem return_iff (x : Float) (p : Vec2 Float) :
    (∀ term sum, (climb term sum x).isSome ↔ ∃ n : ℕ, ¬(· + 1.0)^[n] x < threshold) ∧
    ((∃ n : ℕ, ¬(· + 1.0)^[n] x < threshold) ↔ ¬x ≤ stall) ∧
    digamma? x = (if x ≤ stall then none else some (digamma x)) ∧
    trigamma? x = (if x ≤ stall then none else some (trigamma x)) ∧
    objective1Closed? p = (if p.x ≤ stall then none else some (objective1Closed p)) ∧
    objective2Closed? p = (if p.x + p.y ≤ stall then none else some (objective2Closed p)) ∧
    derivative11Closed? p = (if p.x ≤ stall then none else some (derivative11Closed p)) ∧
    derivative12Closed? p = (if p.x ≤ stall then none else some (derivative12Closed p)) ∧
    master? p = (if p.x ≤ stall ∨ ∃ q ∈ stencil p, q.x + q.y ≤ stall then none
      else some (master p)) := by
  refine ⟨fun term sum => isSome_climb term sum x, ends_iff, digamma?_eq x, trigamma?_eq x, ?_⟩
  exact ⟨objective1Closed?_eq p, objective2Closed?_eq p, derivative11Closed?_eq p,
    derivative12Closed?_eq p, master?_eq p⟩

/-- Far to the left, at a finite point, none of the recurrences ends. -/
theorem unending_far_left :
    (⟨-1e17, 0.0⟩ : Vec2 Float).isFinite = true ∧
    (∀ n : ℕ, (· + 1.0)^[n] (-1e17 : Float) < threshold) ∧
    digamma? (-1e17) = none ∧ trigamma? (-1e17) = none ∧
    objective1Closed? ⟨-1e17, 0.0⟩ = none ∧ objective2Closed? ⟨-1e17, 0.0⟩ = none ∧
    derivative11Closed? ⟨-1e17, 0.0⟩ = none ∧ derivative12Closed? ⟨-1e17, 0.0⟩ = none ∧
    (master? ⟨-1e17, 0.0⟩).isNone := by
  have hx : (-1e17 : Float) ≤ stall := by decide +kernel
  have hxy : (-1e17 : Float) + 0.0 ≤ stall := by decide +kernel
  refine ⟨by decide +kernel, ?_, ?_, ?_, ?_, ?_, ?_, ?_, ?_⟩
  · intro n
    by_contra hn
    exact ends_iff.mp ⟨n, hn⟩ hx
  · rw [digamma?_eq, if_pos hx]
  · rw [trigamma?_eq, if_pos hx]
  · rw [objective1Closed?_eq, if_pos hx]
  · rw [objective2Closed?_eq, if_pos hxy]
  · rw [derivative11Closed?_eq, if_pos hx]
  · rw [derivative12Closed?_eq, if_pos hx]
  · rw [master?_eq, if_pos (.inl hx)]
    rfl

end Summation

end PlanarNewton
