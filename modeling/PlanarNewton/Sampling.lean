import PlanarNewton.Difference

/-!
# Comparing functions by samples

Two functions are compared on a line of equally spaced points: `start`, `start + step`, … up to `end`
along one axis, with the other coordinate fixed. `agree` is the comparison of two values. The points
are looked at one after the other, and the first disagreement ends the comparison, since a line may
hold more points than can be visited.
-/

namespace PlanarNewton.Sampling

/--
The values differ by at most `accuracy` times the largest of 1 and the two magnitudes. Infinite values
agree only with themselves, and NaN agrees with nothing.
-/
def agree (a b accuracy : Float) : Bool :=
  if a.isNaN || b.isNaN then false
  else if a.isInf || b.isInf then a == b
  else (a - b).abs ≤ accuracy * Binary64.larger (Binary64.larger 1.0 a.abs) b.abs

/-- The points `start + i * step` for `i` from 0 to `last`, along an axis. -/
structure Line where
  axis : Axis
  start : Float
  step : Float
  fixed : Float
  last : UInt64
deriving Repr

/-- The coordinate of point `i` along the axis of the line. -/
def Line.along (l : Line) (i : UInt64) : Float :=
  l.start + i.toFloat * l.step

/-- The point of a line with this index. -/
def Line.point (l : Line) (i : UInt64) : Vec2 Float :=
  match l.axis with
  | .x => ⟨l.along i, l.fixed⟩
  | .y => ⟨l.fixed, l.along i⟩

/-- The first whole number beyond 64 bits. -/
def countLimit : Float := 18446744073709551616.0

/-- The line between two ends, unless it is empty, not finite, or has too many points to count. -/
def line? (axis : Axis) (start stop step fixed : Float) : Option Line :=
  if !(step > 0.0) || !start.isFinite || !stop.isFinite || start > stop then none
  else
    let count := Binary64.floor ((stop - start) / step)
    if !count.isFinite || count ≥ countLimit then none
    else some ⟨axis, start, step, fixed, count.toUInt64⟩

/--
The functions agree on the next `left` points of the line, from point `i` on. Asking them for a value may
have effects; the first disagreement is the last that is seen of them.
-/
@[specialize]
def agreeFromM {m : Type → Type} [Monad m] (l : Line) (f g : Vec2 Float → m Float)
    (accuracy : Float) : Nat → UInt64 → m Bool
  | 0, _ => pure true
  | left + 1, i => do
    let a ← f (l.point i)
    let b ← g (l.point i)
    if agree a b accuracy then agreeFromM l f g accuracy left (i + 1) else pure false

/-- The functions agree on all points of the line. -/
@[specialize]
def agreeOnM {m : Type → Type} [Monad m] (l : Line) (f g : Vec2 Float → m Float)
    (accuracy : Float) : m Bool :=
  agreeFromM l f g accuracy (l.last.toNat + 1) 0

/-- The functions agree on the line between two ends, and there is such a line. -/
@[specialize]
def sameFunctionM {m : Type → Type} [Monad m] (axis : Axis) (f g : Vec2 Float → m Float)
    (start stop step fixed accuracy : Float) : m Bool :=
  match line? axis start stop step fixed with
  | some l => agreeOnM l f g accuracy
  | none => pure false

/-- The comparison of functions without effects. -/
def sameFunction (axis : Axis) (f g : Vec2 Float → Float) (start stop step fixed accuracy : Float) :
    Bool :=
  Id.run (sameFunctionM axis (fun p => pure (f p)) (fun p => pure (g p)) start stop step fixed accuracy)

/-- The second function agrees with the central differences of the first along the same axis. -/
def isDerivative (epsilon : Float) (axis : Axis) (f d : Vec2 Float → Float)
    (start stop step fixed accuracy : Float) : Bool :=
  sameFunction axis (centralDifference axis epsilon f) d start stop step fixed accuracy

end PlanarNewton.Sampling
