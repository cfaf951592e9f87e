/-!
# Binary64

The operations on double-precision numbers that the solver needs beside the arithmetic of `Float`
itself. Each is defined on the exact value of its argument (`Float.Model.unpack`), so that it can be
computed in proofs as well as run.
-/

namespace PlanarNewton.Binary64

open Float.Model

/-- The positive infinite double. -/
def infinity : Float := Float.ofBits 0x7FF0000000000000

/-- A double that is not a number. -/
def nan : Float := Float.ofBits 0x7FF8000000000000

/-- The gap between 1 and the next larger double, `2 ^ -52`. -/
def epsilon : Float := Float.ofBits 0x3CB0000000000000

/-- The larger of two doubles, where a NaN gives way to the other operand. -/
def larger (x y : Float) : Float :=
  if x.isNaN then y
  else if y.isNaN then x
  else if x < y then y
  else x

/--
The largest whole double that is not above `x`; zeros, infinities and NaN stay as they are. Shifting an
integer to the right rounds down.
-/
def floor (x : Float) : Float :=
  match x.toModel.unpack with
  | .finite s m e _ => if 0 ≤ e then x else Float.ofInt (s.apply m >>> (-e).toNat)
  | _ => x

end PlanarNewton.Binary64
