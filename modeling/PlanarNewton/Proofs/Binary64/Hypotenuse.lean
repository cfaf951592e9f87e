import PlanarNewton.Proofs.Binary64.Value
import PlanarNewton.Binary64.Hypotenuse

/-!
# Symmetries of the hypotenuse

The hypotenuse depends on the magnitudes of its sides only, and not on their order, bit for bit.
-/

namespace PlanarNewton.Binary64
open Float.Model Float.Model.UnpackedFloat

/-- The squares are added in any order. -/
lemma squareSum_comm (m : ℕ) (e : ℤ) (n : ℕ) (k : ℤ) : squareSum m e n k = squareSum n k m e := by
  simp only [squareSum, min_comm e k, Nat.add_comm]

/-- The sides may be exchanged. -/
theorem hypotenuse_comm (x y : Float) : hypotenuse x y = hypotenuse y x := by
  unfold hypotenuse
  cases x.toModel.unpack with
  | finite s m e hm =>
    cases y.toModel.unpack with
    | finite t n k hn => exact congrArg (fun p => root p.1 p.2) (squareSum_comm m e n k)
    | _ => rfl
  | _ => cases y.toModel.unpack <;> rfl

/-- The first side may be negated. -/
theorem hypotenuse_neg_left (x y : Float) : hypotenuse (-x) y = hypotenuse x y := by
  unfold hypotenuse
  rw [unpack_neg]
  cases x.toModel.unpack <;> cases y.toModel.unpack <;> rfl

/-- The second side may be negated. -/
theorem hypotenuse_neg_right (x y : Float) : hypotenuse x (-y) = hypotenuse x y := by
  rw [hypotenuse_comm, hypotenuse_neg_left, hypotenuse_comm]

end PlanarNewton.Binary64
