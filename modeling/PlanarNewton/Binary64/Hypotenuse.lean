import PlanarNewton.Binary64.Basic

/-!
# The hypotenuse

`hypotenuse x y` is the square root of `x² + y²`, rounded once. The two squares are added as natural
numbers, so nothing overflows, underflows or is lost before the root is taken.
-/

namespace PlanarNewton.Binary64

open Float.Model

/-- The exact sum `(m * 2 ^ e)² + (m' * 2 ^ e')²`, as the pair `(s, k)` that stands for `s * 2 ^ k`. -/
def squareSum (m : Nat) (e : Int) (m' : Nat) (e' : Int) : Nat × Int :=
  let low := min e e'
  let a := m <<< (e - low).toNat
  let b := m' <<< (e' - low).toNat
  (a * a + b * b, 2 * low)

/-- The square root of `s * 2 ^ k`, rounded to the nearest double. -/
def root (s : Nat) (k : Int) : Float :=
  if h : 0 < s then
    .ofModel (.pack (UnpackedFloat.sqrt Format.binary64 (.finite .positive s k h)))
  else
    0.0

/-- The root of the sum of two squares; infinite as soon as one side is, even beside a NaN. -/
def hypotenuse (x y : Float) : Float :=
  match x.toModel.unpack, y.toModel.unpack with
  | .infinity _, _ => infinity
  | _, .infinity _ => infinity
  | .notANumber, _ => nan
  | _, .notANumber => nan
  | .zero _, .zero _ => 0.0
  | .zero _, .finite _ m e _ => root (m * m) (2 * e)
  | .finite _ m e _, .zero _ => root (m * m) (2 * e)
  | .finite _ m e _, .finite _ m' e' _ =>
    let (s, k) := squareSum m e m' e'
    root s k

end PlanarNewton.Binary64
