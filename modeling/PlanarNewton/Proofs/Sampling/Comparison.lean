import PlanarNewton.Proofs.Sampling.Line

/-!
# What the comparison decides

A comparison holds where the range can be counted and the functions agree at every sample
(`sameFunction_iff`). The loop runs in any monad, so that functions which note what they are asked for
show the order of evaluation: both are asked at every sample up to the first disagreement, and nowhere
else (`agreeFromM_noted`). Comparing along the second axis is comparing along the first with the
coordinates exchanged (`sameFunctionM_swap`). Main statement: `sameFunction_decides`.
-/

namespace PlanarNewton

/-- The point with its coordinates exchanged. -/
def Vec2.swap {α : Type} (p : Vec2 α) : Vec2 α :=
  ⟨p.y, p.x⟩

namespace Sampling
open Binary64 Binary64.Value

section Axes
variable {m : Type → Type} [Monad m] {f g : Vec2 Float → m Float} {l : Line}
  {start stop step fixed accuracy : Float}

/-- Along the other axis, the comparison is that of the functions with exchanged coordinates. -/
lemma agreeFromM_swap (left : ℕ) (i : UInt64) :
    agreeFromM { l with axis := .y } f g accuracy left i =
      agreeFromM { l with axis := .x } (fun p => f p.swap) (fun p => g p.swap) accuracy left i := by
  induction left generalizing i with
  | zero => rfl
  | succ left ih =>
    simp only [agreeFromM, ih]
    rfl

/-- A line along the other axis is the same line with its axis exchanged. -/
lemma line?_y : line? .y start stop step fixed =
    (line? .x start stop step fixed).map ({ · with axis := .y }) := by
  simp only [line?]
  split
  · rfl
  · split <;> rfl

/-- A line has the axis that it was asked for. -/
lemma axis_of_line? {axis : Axis} (h : line? axis start stop step fixed = some l) :
    l.axis = axis := by
  obtain ⟨n, -, rfl⟩ := line?_eq_some_iff.mp h
  rfl

/-- Comparing along the second axis is comparing along the first with the coordinates exchanged. -/
theorem sameFunctionM_swap : sameFunctionM .y f g start stop step fixed accuracy =
    sameFunctionM .x (fun p => f p.swap) (fun p => g p.swap) start stop step fixed accuracy := by
  rw [sameFunctionM, sameFunctionM, line?_y]
  cases hl : line? .x start stop step fixed with
  | none => rfl
  | some l =>
    have hx : l = { l with axis := .x } := by
      rw [← axis_of_line? hl]
    rw [hx]
    exact agreeFromM_swap _ _

end Axes

/-- A value of one of the compared functions is asked for. -/
inductive Request where
  | first (p : Vec2 Float)
  | second (p : Vec2 Float)

/-- The function, which also notes what it is asked for. -/
def noted (request : Vec2 Float → Request) (f : Vec2 Float → Float) (p : Vec2 Float) :
    StateM (List Request) Float := do
  modify (· ++ [request p])
  pure (f p)

/-- Both functions are asked for a value, the first one first. -/
def both (p : Vec2 Float) : List Request :=
  [.first p, .second p]

/-- The elements of a list up to the first one that fails the test, with that one. -/
def upToFirst {α : Type} (test : α → Bool) : List α → List α
  | [] => []
  | a :: as => if test a then a :: upToFirst test as else [a]

/-- The points of a line from point `k` on. -/
def Line.points (l : Line) (k count : ℕ) : List (Vec2 Float) :=
  (List.range' k count).map fun i => l.point (.ofNat i)

/-- The points of a line are the first one and those from the next index on. -/
lemma Line.points_succ (l : Line) (k count : ℕ) :
    l.points k (count + 1) = l.point (.ofNat k) :: l.points (k + 1) count := rfl

section Run
variable {f g : Vec2 Float → Float} {l : Line} {accuracy : Float}

/-- Without effects, the loop looks whether the functions agree on all points. -/
lemma agreeFromM_pure (left k : ℕ) :
    Id.run (agreeFromM l (fun p => pure (f p)) (fun p => pure (g p)) accuracy left (.ofNat k)) =
      (l.points k left).all fun p => agree (f p) (g p) accuracy := by
  induction left generalizing k with
  | zero => rfl
  | succ left ih =>
    have hnext := ih (k + 1)
    rw [UInt64.ofNat_add] at hnext
    rw [Line.points_succ, List.all_cons, ← hnext]
    simp only [agreeFromM, pure_bind]
    cases agree (f (l.point (.ofNat k))) (g (l.point (.ofNat k))) accuracy <;> rfl

/-- One turn asks both functions for a value, and the next follows if the values agree. -/
lemma agreeFromM_noted_succ (left : ℕ) (i : UInt64) (asked : List Request) :
    (agreeFromM l (noted .first f) (noted .second g) accuracy (left + 1) i).run asked =
      if agree (f (l.point i)) (g (l.point i)) accuracy then
        (agreeFromM l (noted .first f) (noted .second g) accuracy left (i + 1)).run
          (asked ++ both (l.point i))
      else pure (false, asked ++ both (l.point i)) := by
  have happend : asked ++ both (l.point i) =
      asked ++ [.first (l.point i)] ++ [.second (l.point i)] := by
    rw [List.append_assoc]
    rfl
  rw [happend, agreeFromM]
  show (if _ then _ else _ : StateM (List Request) Bool).run _ = _
  split <;> rfl

/-- The functions are asked for their values up to the first point where they disagree. -/
lemma agreeFromM_noted (left k : ℕ) (asked : List Request) :
    (agreeFromM l (noted .first f) (noted .second g) accuracy left (.ofNat k)).run asked =
      pure ((l.points k left).all fun p => agree (f p) (g p) accuracy,
        asked ++ (upToFirst (fun p => agree (f p) (g p) accuracy) (l.points k left)).flatMap both) := by
  induction left generalizing k asked with
  | zero =>
    rw [Line.points, List.range'_zero, List.map_nil, upToFirst, List.flatMap_nil, List.append_nil]
    rfl
  | succ left ih =>
    have hnext := ih (k + 1) (asked ++ both (l.point (.ofNat k)))
    rw [UInt64.ofNat_add] at hnext
    rw [Line.points_succ, List.all_cons, upToFirst, agreeFromM_noted_succ]
    split
    · rename_i h
      rw [h, Bool.true_and, List.flatMap_cons, ← List.append_assoc]
      exact hnext
    · rename_i h
      rw [Bool.not_eq_true] at h
      rw [h, Bool.false_and, List.flatMap_singleton]

end Run

/-- The sample points of a range along the first axis, up to the one with number `n`. -/
def samples (start step fixed : Float) (n : ℕ) : List (Vec2 Float) :=
  (List.range (n + 1)).map fun i => ⟨start + (UInt64.ofNat i).toFloat * step, fixed⟩

section Range
variable {f g : Vec2 Float → Float} {start stop step fixed accuracy : Float} {n : ℕ}

/-- A counted range has a line with that number of steps. -/
lemma IsCounted.line?_eq (h : IsCounted start stop step n) :
    line? .x start stop step fixed = some ⟨.x, start, step, fixed, .ofNat n⟩ :=
  line?_eq_some_iff.mpr ⟨n, h, rfl⟩

/-- A range that is not counted has no line. -/
lemma line?_eq_none (h : ¬∃ n, IsCounted start stop step n) :
    line? .x start stop step fixed = none := by
  cases hl : line? .x start stop step fixed with
  | none => rfl
  | some l =>
    obtain ⟨n, hn, -⟩ := line?_eq_some_iff.mp hl
    exact absurd ⟨n, hn⟩ h

/-- The points of a line are the samples. -/
lemma points_eq_samples :
    (⟨.x, start, step, fixed, .ofNat n⟩ : Line).points 0 (n + 1) = samples start step fixed n := by
  rw [Line.points, samples, List.range_eq_range']
  rfl

/-- On a counted range, functions are the same if they agree at all samples. -/
lemma IsCounted.sameFunction_eq (h : IsCounted start stop step n) :
    sameFunction .x f g start stop step fixed accuracy =
      (samples start step fixed n).all fun p => agree (f p) (g p) accuracy := by
  have hn : (UInt64.ofNat n).toNat = n := Nat.mod_eq_of_lt h.count_lt
  simp only [sameFunction, sameFunctionM, h.line?_eq, agreeOnM, hn]
  rw [← points_eq_samples]
  exact agreeFromM_pure (n + 1) 0

/-- On a counted range, the functions are asked at the samples up to the first where they
disagree. -/
lemma IsCounted.noted_eq (h : IsCounted start stop step n) :
    (sameFunctionM .x (noted .first f) (noted .second g) start stop step fixed accuracy).run [] =
      pure (sameFunction .x f g start stop step fixed accuracy,
        (upToFirst (fun p => agree (f p) (g p) accuracy)
          (samples start step fixed n)).flatMap both) := by
  have hn : (UInt64.ofNat n).toNat = n := Nat.mod_eq_of_lt h.count_lt
  rw [h.sameFunction_eq]
  simp only [sameFunctionM, h.line?_eq, agreeOnM, hn]
  rw [← points_eq_samples]
  exact agreeFromM_noted (n + 1) 0 []

/-- The number of samples of a counted range has 64 bits. -/
lemma IsCounted.succ_lt (h : IsCounted start stop step n) : n + 1 < 2 ^ 64 :=
  succ_lt_of_representable (finite_spec h.count).1 h.count_lt

end Range

/-- The checks hold where there is a range and the functions agree at every sample of it. -/
lemma sameFunction_iff (f g : Vec2 Float → Float) (start stop step fixed accuracy : Float) :
    sameFunction .x f g start stop step fixed accuracy = true ↔
      ∃ n, IsCounted start stop step n ∧
        ∀ p ∈ samples start step fixed n, agree (f p) (g p) accuracy = true := by
  constructor
  · intro h
    by_cases hn : ∃ n, IsCounted start stop step n
    · obtain ⟨n, hn⟩ := hn
      rw [hn.sameFunction_eq, List.all_eq_true] at h
      exact ⟨n, hn, h⟩
    · rw [sameFunction, sameFunctionM, line?_eq_none hn] at h
      cases h
  · rintro ⟨n, hn, h⟩
    rw [hn.sameFunction_eq, List.all_eq_true]
    exact h

/--
The comparison decides whether there are samples and the functions agree on them. The count is converted
exactly, the number of samples does not wrap around, and the functions are asked for their values up to
the first disagreement. Derivatives are compared in the same way, and so is the second axis.
-/
theorem sameFunction_decides (f g : Vec2 Float → Float)
    (start stop step fixed accuracy epsilon : Float) :
    (sameFunction .x f g start stop step fixed accuracy = true ↔
      ∃ n, IsCounted start stop step n ∧
        ∀ p ∈ samples start step fixed n, agree (f p) (g p) accuracy = true) ∧
    (∀ n, IsCounted start stop step n →
      (floor ((stop - start) / step)).toUInt64.toNat = n ∧ n + 1 < 2 ^ 64 ∧
      (sameFunctionM .x (noted .first f) (noted .second g) start stop step fixed accuracy).run [] =
        pure (sameFunction .x f g start stop step fixed accuracy,
          (upToFirst (fun p => agree (f p) (g p) accuracy)
            (samples start step fixed n)).flatMap both)) ∧
    ((¬∃ n, IsCounted start stop step n) →
      (sameFunctionM .x (noted .first f) (noted .second g) start stop step fixed accuracy).run [] =
        pure (false, [])) ∧
    (∀ axis, isDerivative epsilon axis f g start stop step fixed accuracy =
      sameFunction axis (centralDifference axis epsilon f) g start stop step fixed accuracy) ∧
    sameFunction .y f g start stop step fixed accuracy =
      sameFunction .x (fun p => f p.swap) (fun p => g p.swap) start stop step fixed accuracy ∧
    isDerivative epsilon .y f g start stop step fixed accuracy =
      isDerivative epsilon .x (fun p => f p.swap) (fun p => g p.swap) start stop step fixed
        accuracy := by
  refine ⟨sameFunction_iff f g start stop step fixed accuracy,
    fun n hn => ⟨?_, hn.succ_lt, hn.noted_eq⟩, fun hn => ?_, fun axis => rfl,
    congrArg Id.run sameFunctionM_swap, congrArg Id.run sameFunctionM_swap⟩
  · rw [hn.toUInt64_eq]
    exact Nat.mod_eq_of_lt hn.count_lt
  · rw [sameFunctionM, line?_eq_none hn]
    rfl

-- Of five samples, the first two are asked for: the functions disagree at the second.
example : ((sameFunctionM .x (noted .first fun p => p.x) (noted .second fun _ => 0.0)
    0.0 1.0 0.25 0.0 1e-6).run []).2.length = 4 := by
  decide +kernel

end Sampling
end PlanarNewton
