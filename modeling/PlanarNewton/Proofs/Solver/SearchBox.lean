import PlanarNewton.Proofs.Solver.Stream

/-!
# Starts in the search box

A point that is drawn from a checked search box lies in it (`Box.Contains`). For one coordinate this is
`uniform_mem`: the roundings of the width, of the product and of the sum do not lead out of the bounds
together. All points that a search for a start looks at are drawn this way, the refused ones and the
accepted one, and so are all those of a solve (`Box.contains_drawn`).
-/

namespace PlanarNewton
open Binary64

/-- A finite number within two bounds, which belong to the range. -/
structure IsWithin (low high x : Float) : Prop where
  isFinite : x.isFinite = true
  low_le : low ≤ x
  le_high : x ≤ high

/-- A uniform number from a checked side lies on it. -/
lemma IsSide.uniform_isWithin {low high : Float} (h : IsSide low high) (u : UInt64) :
    IsWithin low high (uniform low high u) := by
  obtain ⟨p, q, hp, hq, hpq⟩ := h.exists_values
  obtain ⟨r, hr, hpr, hrq⟩ := uniform_mem hp hq hpq h.width_finite u
  refine ⟨isFinite_of_value hr, ?_, ?_⟩
  · rwa [le_iff, hp, hr, Value.finite_le]
  · rwa [le_iff, hr, hq, Value.finite_le]

namespace Box

/-- The point is finite, and both its coordinates are within the bounds of the box. -/
structure Contains (box : Box) (p : Vec2 Float) : Prop where
  x : IsWithin box.lower.x box.upper.x p.x
  y : IsWithin box.lower.y box.upper.y p.y

/-- Any two numbers of a generator stand for a point in the box. -/
lemma contains_uniform {box : Box} (h : Config.checkSearchRange box.lower box.upper = .ok ())
    (u v : UInt64) :
    box.Contains ⟨uniform box.lower.x box.upper.x u, uniform box.lower.y box.upper.y v⟩ := by
  obtain ⟨hx, hy⟩ := Config.isSide_of_checkSearchRange h
  exact ⟨hx.uniform_isWithin u, hy.uniform_isWithin v⟩

end Box

/-- Each point of a stream comes from a pair of its numbers and one of the boxes. -/
lemma Generator.exists_of_mem_points {g : Generator} {boxes : List Box} {p : Vec2 Float}
    (h : p ∈ g.points boxes) : ∃ box ∈ boxes, ∃ i, p = g.pointAt box i := by
  obtain ⟨i, hi, rfl⟩ := List.mem_mapIdx.mp h
  exact ⟨boxes[i], List.getElem_mem hi, i, rfl⟩

/-- Candidates that were drawn in one box lie in it. -/
lemma Equations.Samples.contains {μ : Type} {s : Equations Float μ} {g g' : Generator} {n : ℕ}
    {box : Box} {cs ss : List (Vec2 Float)} (h : s.Samples g (.replicate n box) cs ss g')
    (hb : Config.checkSearchRange box.lower box.upper = .ok ()) : ∀ p ∈ cs, box.Contains p := by
  intro p hp
  rw [h.yields.drawn_eq] at hp
  obtain ⟨_, hmem, i, rfl⟩ := Generator.exists_of_mem_points hp
  obtain rfl := List.eq_of_mem_replicate hmem
  exact Box.contains_uniform hb _ _

namespace Box

/--
Every point drawn from a search box lies in it, whatever the size of the bounds: the one that any two
numbers of a generator stand for, all those that a search for a start looks at, whether or not the
constraints accept them, and all those of a solve.
-/
theorem contains_drawn {box : Box} (h : Config.checkSearchRange box.lower box.upper = .ok ()) :
    (∀ u v : UInt64,
      box.Contains ⟨uniform box.lower.x box.upper.x u, uniform box.lower.y box.upper.y v⟩) ∧
    (∀ {μ : Type} (s : Equations Float μ) (patience : ℕ) (g : Generator),
      ∀ p ∈ (s.drawStart box.lower box.upper patience g).candidates, box.Contains p) ∧
    ∀ {μ : Type} (s : Solver μ) (log : Logging), s.config.box = box →
      ∀ p ∈ (s.solve log).candidates, box.Contains p := by
  refine ⟨contains_uniform h, ?_, ?_⟩
  · intro μ s patience g
    exact (Equations.IsDraw.samples box (s.isDraw_drawStart _ _ patience g)).contains h
  · rintro μ s log rfl
    have hs := s.samples_solve log
    rw [Solved.boxes, s.config_solve] at hs
    exact hs.contains h

/-- As wide as the largest double, and as high as the least. -/
def extreme : Box :=
  ⟨⟨.ofBits 0xFFDFFFFFFFFFFFFF, 0.0⟩, ⟨.ofBits 0x7FDFFFFFFFFFFFFF, .ofBits 1⟩⟩

/-- The greatest pair of numbers stands for a point in the box, too. -/
theorem contains_drawn_extreme :
    extreme.Contains ⟨uniform extreme.lower.x extreme.upper.x 0xFFFFFFFFFFFFFFFF,
      uniform extreme.lower.y extreme.upper.y 0xFFFFFFFFFFFFFFFF⟩ := by
  have h : Config.checkSearchRange extreme.lower extreme.upper = .ok () := if_neg (by decide +kernel)
  exact (contains_drawn h).1 _ _

end Box

end PlanarNewton
