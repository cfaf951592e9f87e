import PlanarNewton.Decimal.Shortest

/-!
# Writing doubles

Two ways to write the shortest decimal of a double: scientific (`1.5e-7`, one digit before the point)
and positional (`0.00000015`, never an exponent). Both write whole numbers without a point, keep the
sign of a negative zero and name what is no number. A third way, `fixed`, writes the exact value to a
given number of places.
-/

namespace PlanarNewton.Decimal

open Float.Model

/-- The decimal digits of a number, the leading one first. -/
def digits (n : Nat) : List Char :=
  Nat.toDigits 10 n

/-- One digit, a point and the others if there are any, and the exponent of ten. -/
def scientific (d : Decimal) : List Char :=
  let ds := digits d.significand
  let exponent := d.exponent + (ds.length - 1 : Nat)
  let fraction := if ds.length ≤ 1 then [] else '.' :: ds.drop 1
  ds.take 1 ++ fraction ++ 'e' :: (toString exponent).toList

/-- All digits with as many zeros as the place of the point asks for. -/
def positional (d : Decimal) : List Char :=
  let ds := digits d.significand
  if 0 ≤ d.exponent then ds ++ List.replicate d.exponent.toNat '0'
  else
    let places := (-d.exponent).toNat
    let padded := List.replicate (places + 1 - ds.length) '0' ++ ds
    padded.take (padded.length - places) ++ '.' :: padded.drop (padded.length - places)

/-- The text with a minus sign in front, for a negative number. -/
def signed (s : UnpackedFloat.Sign) (text : List Char) : List Char :=
  match s with
  | .positive => text
  | .negative => '-' :: text

/-- The text of a double, where `layout` writes the decimal of a positive one. -/
def write (layout : Decimal → List Char) (x : Float) : String :=
  String.ofList <| match x.toModel.unpack with
    | .notANumber => ['N', 'a', 'N']
    | .infinity s => signed s ['i', 'n', 'f']
    | .zero s => signed s (layout ⟨0, 0⟩)
    | .finite s m e _ => signed s (layout (shortest m e))

/-- `n / d` rounded to the nearest whole number, a half to the even one. -/
def roundHalfEven (n d : Nat) : Nat :=
  let q := n / d
  let r := 2 * (n % d)
  if r < d ∨ (r = d ∧ q % 2 = 0) then q else q + 1

/-- The exact value of a double, rounded to `places` decimal places. -/
def fixed (places : Nat) (x : Float) : String :=
  let layout (n : Nat) := positional ⟨n, -places⟩
  String.ofList <| match x.toModel.unpack with
    | .notANumber => ['N', 'a', 'N']
    | .infinity s => signed s ['i', 'n', 'f']
    | .zero s => signed s (layout 0)
    | .finite s m e _ =>
      signed s (layout (roundHalfEven ((m * Nat.pow 10 places) <<< e.toNat) (1 <<< (-e).toNat)))

end PlanarNewton.Decimal

namespace PlanarNewton

/-- The double in scientific form: `1.5e0`, `1e3`, `5e-324`, `-0e0`, `NaN`, `inf`. -/
def scientific (x : Float) : String :=
  Decimal.write Decimal.scientific x

/-- The double in positional form: `1.5`, `1000`, `0.0000001`, `-0`, `NaN`, `inf`. -/
def positional (x : Float) : String :=
  Decimal.write Decimal.positional x

end PlanarNewton
