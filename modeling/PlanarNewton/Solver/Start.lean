import PlanarNewton.Equations
import PlanarNewton.Random.Generator

/-!
# Random starts

Points are drawn from the search box until the constraints accept one, or until as many were refused
as there is patience for.
-/

namespace PlanarNewton

/-- What a search for a start point drew: the refused points in order, and the accepted one. -/
structure Draw where
  refused : List (Vec2 Float)
  start : Option (Vec2 Float)
  generator : Generator

namespace Equations

variable {μ : Type}

/-- Draws points while there is patience, after the given refused ones, the latest first. -/
def drawFrom (s : Equations Float μ) (lower upper : Vec2 Float) :
    Nat → Generator → List (Vec2 Float) → Draw
  | 0, g, refused => ⟨refused.reverse, none, g⟩
  | patience + 1, g, refused =>
    let (candidate, g) := g.point lower upper
    if s.accepts candidate then ⟨refused.reverse, some candidate, g⟩
    else drawFrom s lower upper patience g (candidate :: refused)

/-- Draws a start point from the box; gives up when `patience` points were refused. -/
def drawStart (s : Equations Float μ) (lower upper : Vec2 Float) (patience : Nat) (g : Generator) :
    Draw :=
  s.drawFrom lower upper patience g []

end Equations

end PlanarNewton
