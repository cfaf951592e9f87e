import Mathlib.Tactic
import PlanarNewton.Proofs.Random.Uniform
import PlanarNewton.Solver.Start

/-!
# Derivations of draws

`IsDraw` describes the search for a start point by a rule for each way that it goes on or ends. The
loop computes the draw that has a derivation (`isDraw_drawStart`, `IsDraw.eq`). A start that was found
is accepted and, if the box is a search range, finite (`IsDraw.start_spec`); a search is given up only
when its patience is spent (`IsDraw.refused_of_none`), and more patience makes no difference to one
that found a start (`IsDraw.mono`).
-/

namespace PlanarNewton

variable {μ : Type}

/-- The draw that goes on as `d` after a refused point. -/
def Draw.after (p : Vec2 Float) (d : Draw) : Draw :=
  { d with refused := p :: d.refused }

namespace Equations

variable {s : Equations Float μ} {lower upper : Vec2 Float}

/-- The draw with so much patience from a generator. -/
inductive IsDraw (s : Equations Float μ) (lower upper : Vec2 Float) :
    ℕ → Generator → Draw → Prop where
  | spent {g} : IsDraw s lower upper 0 g ⟨[], none, g⟩
  | accepted {patience g p g'} (hp : g.point lower upper = (p, g')) (hc : s.accepts p = true) :
    IsDraw s lower upper (patience + 1) g ⟨[], some p, g'⟩
  | refused {patience g p g' d} (hp : g.point lower upper = (p, g')) (hc : s.accepts p = false)
      (h : IsDraw s lower upper patience g' d) : IsDraw s lower upper (patience + 1) g (d.after p)

/-- The refused points that the loop carries along only stand before those it adds. -/
lemma drawFrom_eq (patience : ℕ) (g : Generator) (refused : List (Vec2 Float)) :
    s.drawFrom lower upper patience g refused =
      let d := s.drawStart lower upper patience g
      ⟨refused.reverse ++ d.refused, d.start, d.generator⟩ := by
  induction patience generalizing g refused with
  | zero => simp [drawStart, drawFrom]
  | succ patience ih =>
    simp only [drawStart, drawFrom]
    split
    · simp
    · rw [ih, ih _ [_]]
      simp

/-- What `drawStart` computes has a derivation. -/
theorem isDraw_drawStart (s : Equations Float μ) (lower upper : Vec2 Float) (patience : ℕ)
    (g : Generator) : IsDraw s lower upper patience g (s.drawStart lower upper patience g) := by
  induction patience generalizing g with
  | zero => exact .spent
  | succ patience ih =>
    cases hp : g.point lower upper with
    | mk p g' =>
      rw [drawStart, drawFrom, hp]
      cases hc : s.accepts p with
      | true =>
        simp only [hc, if_true]
        exact .accepted hp hc
      | false =>
        simp only [hc, drawFrom_eq]
        exact .refused hp hc (ih g')

namespace IsDraw

/-- A draw with a derivation is the one that `drawStart` computes. -/
theorem eq {patience g d} (h : IsDraw s lower upper patience g d) :
    s.drawStart lower upper patience g = d := by
  induction h with
  | spent => rfl
  | accepted hp hc =>
    rw [drawStart, drawFrom, hp]
    exact if_pos hc
  | refused hp hc h ih =>
    rw [drawStart, drawFrom, hp]
    simp only [hc, drawFrom_eq, ih]
    rfl

/-- When the search is given up, all patience is spent. -/
lemma refused_of_none {patience g d} (h : IsDraw s lower upper patience g d)
    (hs : d.start = none) : d.refused.length = patience := by
  induction h with
  | spent => rfl
  | accepted => cases hs
  | refused _ _ _ ih => exact congrArg Nat.succ (ih hs)

/-- A draw with a start did not use up its patience. -/
lemma refused_lt_of_some {patience g d p} (h : IsDraw s lower upper patience g d)
    (hs : d.start = some p) : d.refused.length < patience := by
  induction h with
  | spent => cases hs
  | accepted => exact Nat.succ_pos _
  | refused _ _ _ ih => exact Nat.succ_lt_succ (ih hs)

/-- A start is accepted by the constraints and comes from the generator. -/
lemma start_spec {patience g d p} (h : IsDraw s lower upper patience g d) (hs : d.start = some p) :
    s.accepts p = true ∧ ∃ g' : Generator, (g'.point lower upper).1 = p := by
  induction h with
  | spent => cases hs
  | accepted hp hc =>
    cases hs
    exact ⟨hc, _, congrArg Prod.fst hp⟩
  | refused _ _ _ ih => exact ih hs

/-- A start that was drawn is finite. -/
lemma start_isFinite {patience g d p} (hr : Config.checkSearchRange lower upper = .ok ())
    (h : IsDraw s lower upper patience g d) (hs : d.start = some p) : p.isFinite = true := by
  obtain ⟨-, g', rfl⟩ := h.start_spec hs
  exact g'.isFinite_point hr

/-- To a search that found a start, more patience makes no difference. -/
lemma mono {patience patience' g d} (h : IsDraw s lower upper patience g d)
    (hl : patience ≤ patience') (hs : d.start ≠ none) : IsDraw s lower upper patience' g d := by
  induction h generalizing patience' with
  | spent => exact absurd rfl hs
  | accepted hp hc =>
    obtain ⟨k, rfl⟩ := Nat.exists_eq_add_of_lt hl
    exact .accepted hp hc
  | refused hp hc h ih =>
    obtain ⟨k, rfl⟩ := Nat.exists_eq_add_of_lt hl
    exact .refused hp hc (ih (by omega) hs)

end IsDraw

end Equations

end PlanarNewton
