import Mathlib.Tactic
import PlanarNewton.Random.Generator

/-!
# Points of a stream

For a list of boxes, a generator yields one point in each: the numbers of its stream are taken two by
two, the first of a pair for `x` and the second for `y` (`Generator.points`). Draws that follow each
other are one longer draw (`Generator.Yields.append`), so that nothing is skipped between them and
nothing is repeated.
-/

namespace PlanarNewton

/-- The corners of a search box. -/
structure Box where
  lower : Vec2 Float
  upper : Vec2 Float

namespace Generator

/-- The point that pair number `i` from here stands for in a box. -/
def pointAt (g : Generator) (box : Box) (i : ℕ) : Vec2 Float :=
  ⟨uniform box.lower.x box.upper.x (output g.key (g.position + 2 * i)),
    uniform box.lower.y box.upper.y (output g.key (g.position + 2 * i + 1))⟩

/-- The generator after so many pairs of numbers. -/
def skip (g : Generator) (n : ℕ) : Generator :=
  atPosition g.key (g.position + 2 * n)

/-- The points in the boxes, in order, that the pairs of numbers from here stand for. -/
def points (g : Generator) (boxes : List Box) : List (Vec2 Float) :=
  boxes.mapIdx fun i box => g.pointAt box i

/-- The points drawn from `g` in the boxes, and the generator that this leaves. -/
structure Yields (g : Generator) (boxes : List Box) (drawn : List (Vec2 Float)) (g' : Generator) :
    Prop where
  drawn_eq : drawn = g.points boxes
  generator_eq : g' = g.skip boxes.length

/-- A point takes the next pair of numbers. -/
lemma point_eq (g : Generator) (box : Box) :
    g.point box.lower box.upper = (g.pointAt box 0, g.skip 1) := by
  show (Vec2.mk (uniform _ _ g.next.1) (uniform _ _ g.next.2.next.1), g.next.2.next.2) = _
  rw [next_snd, next_snd, next_fst, next_fst]
  rfl

/-- To skip nothing changes nothing. -/
lemma skip_zero (g : Generator) : g.skip 0 = g :=
  ext rfl rfl

/-- What is skipped in two parts is skipped together. -/
lemma skip_skip (g : Generator) (m n : ℕ) : (g.skip m).skip n = g.skip (m + n) := by
  refine ext rfl ?_
  show g.position + 2 * m + 2 * n = g.position + 2 * (m + n)
  ring

/-- The points after a skip are later points. -/
lemma pointAt_skip (g : Generator) (box : Box) (m i : ℕ) :
    (g.skip m).pointAt box i = g.pointAt box (i + m) := by
  have h : g.position + 2 * m + 2 * i = g.position + 2 * (i + m) := by ring
  show Vec2.mk (uniform _ _ (output g.key (g.position + 2 * m + 2 * i)))
    (uniform _ _ (output g.key (g.position + 2 * m + 2 * i + 1))) = _
  rw [h]
  rfl

/-- The points for more boxes follow those for the first ones. -/
lemma points_append (g : Generator) (boxes boxes' : List Box) :
    g.points (boxes ++ boxes') = g.points boxes ++ (g.skip boxes.length).points boxes' := by
  rw [points, List.mapIdx_append]
  simp only [points, pointAt_skip]

namespace Yields

variable {g g' g'' : Generator} {boxes boxes' : List Box} {drawn drawn' : List (Vec2 Float)}

/-- No points are drawn for no boxes. -/
lemma nil (g : Generator) : g.Yields [] [] g :=
  ⟨rfl, g.skip_zero.symm⟩

/-- One point is drawn for one box. -/
lemma one {box : Box} {p : Vec2 Float} (h : g.point box.lower box.upper = (p, g')) :
    g.Yields [box] [p] g' := by
  obtain ⟨rfl, rfl⟩ := Prod.mk.inj ((g.point_eq box).symm.trans h)
  exact ⟨rfl, rfl⟩

/-- Draws that follow each other take their numbers one after another. -/
theorem append (h : g.Yields boxes drawn g') (h' : g'.Yields boxes' drawn' g'') :
    g.Yields (boxes ++ boxes') (drawn ++ drawn') g'' := by
  obtain ⟨rfl, rfl⟩ := h
  obtain ⟨rfl, rfl⟩ := h'
  refine ⟨(g.points_append boxes boxes').symm, ?_⟩
  rw [skip_skip, List.length_append]

/-- A point is drawn in each box. -/
lemma length (h : g.Yields boxes drawn g') : drawn.length = boxes.length := by
  rw [h.drawn_eq, points, List.length_mapIdx]

end Yields

end Generator

end PlanarNewton
