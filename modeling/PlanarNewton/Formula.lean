import PlanarNewton.Difference

/-!
# Formulas

Functions of a point, written down as trees: constants, the two coordinates, arithmetic, comparisons
and logic, difference quotients of other formulas, and functions given from outside. A truth value is
the number 1 or 0, and a number counts as true unless it is zero or NaN.
-/

namespace PlanarNewton

/-- The operations on one number. -/
inductive Formula.Unary where
  | neg
  | sqrt
  | abs
  | floor
  | not
deriving DecidableEq, Repr

/-- The operations on two numbers. -/
inductive Formula.Binary where
  | add
  | sub
  | mul
  | div
  | lt
  | le
  | gt
  | ge
  | eq
  | and
  | or
deriving DecidableEq, Repr

/-- A function of a point, as a tree. -/
inductive Formula where
  | constant (value : Float)
  | coordinate (axis : Axis)
  /-- The number of calls so far, for a function that counts them. -/
  | calls
  | unary (op : Formula.Unary) (a : Formula)
  | binary (op : Formula.Binary) (a b : Formula)
  /-- The value of `a` where `condition` is true, and of `b` elsewhere. -/
  | choose (condition a b : Formula)
  /-- The central difference of `f` along an axis. -/
  | slope (axis : Axis) (step : Float) (f : Formula)
  | function (f : Vec2 Float → Float)

namespace Formula

/-- The number that stands for a truth value. -/
def ofBool (b : Bool) : Float :=
  if b then 1.0 else 0.0

/-- A number is true unless it is zero or NaN. -/
def isTrue (v : Float) : Bool :=
  !(v == 0.0) && !v.isNaN

/-- The value of an operation with one operand. -/
def Unary.apply (op : Unary) (a : Float) : Float :=
  match op with
  | .neg => -a
  | .sqrt => a.sqrt
  | .abs => a.abs
  | .floor => Binary64.floor a
  | .not => ofBool (!isTrue a)

/-- The value of an operation with two operands; comparisons and connectives have the values 0 and
1. -/
def Binary.apply (op : Binary) (a b : Float) : Float :=
  match op with
  | .add => a + b
  | .sub => a - b
  | .mul => a * b
  | .div => a / b
  | .lt => ofBool (a < b)
  | .le => ofBool (a ≤ b)
  | .gt => ofBool (a > b)
  | .ge => ofBool (a ≥ b)
  | .eq => ofBool (a == b)
  | .and => ofBool (isTrue a && isTrue b)
  | .or => ofBool (isTrue a || isTrue b)

/-- The value of a formula at a point, on the given call. -/
def value (call : Float) : Formula → Vec2 Float → Float
  | constant v, _ => v
  | coordinate .x, p => p.x
  | coordinate .y, p => p.y
  | calls, _ => call
  | unary op a, p => op.apply (a.value call p)
  | binary op a b, p => op.apply (a.value call p) (b.value call p)
  | choose c a b, p => if isTrue (c.value call p) then a.value call p else b.value call p
  | slope axis step f, p => centralDifference axis step (f.value call) p
  | function f, p => f p

/-- The value of a formula at a point, where calls are not counted. -/
def eval (f : Formula) (p : Vec2 Float) : Float :=
  f.value 0.0 p

/-- The formula accepts the point. -/
def holds (f : Formula) (p : Vec2 Float) : Bool :=
  isTrue (f.eval p)

/-- Refuses a formula with a difference quotient over a step that is none; the first one is named. -/
def check : Formula → Except Error Unit
  | constant _ | coordinate _ | calls | function _ => .ok ()
  | unary _ a => a.check
  | binary _ a b => do a.check; b.check
  | choose c a b => do c.check; a.check; b.check
  | slope _ step f => do
    let _ ← Difference.checkStep step
    f.check

end Formula

end PlanarNewton
