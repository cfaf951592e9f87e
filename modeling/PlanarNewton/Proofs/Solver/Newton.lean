import PlanarNewton.Proofs.Solver.Safety

/-!
# The Newton sequence

The visits of Newton's method from a start, as a sequence that knows neither accuracy nor budget
(`Equations.newton`). It ends where a step leads nowhere. An attempt reads this sequence up to the first
index at which it has to stop: where the objective is not finite, or below the accuracy, or where no
step is left or possible (`Equations.StopsAt`). There is one such index at most (`StopsAt.unique`), and
an attempt finds one (`IsAttempt.stopsAt`), so that how an attempt ends is read off the sequence
(`Equations.attempt_reference`).
-/

namespace PlanarNewton

variable {μ : Type}

/-- An attempt without a failure has converged. -/
lemma Outcome.exists_converged {o : Outcome} (h : o.failure? = none) :
    ∃ q r, o = .converged q r := by
  cases o with
  | converged q r => exact ⟨q, r, rfl⟩
  | failed => cases h

namespace Equations

/-- The visit of a point, and the memory that it leaves. -/
def visit (s : Equations Float μ) (p : Vec2 Float) (m : μ) : Visit × μ :=
  (⟨p, (s.evaluate p m).1⟩, (s.evaluate p m).2)

/-- The point that the Newton step from a visit leads to, if it is finite and accepted. -/
def next? (s : Equations Float μ) (v : Visit) : Option (Vec2 Float) := do
  let step ← v.evaluation.jacobian.solve (-v.evaluation.objective)
  if (v.point + step).isFinite && s.accepts (v.point + step) then some (v.point + step) else none

/-- The visits of Newton's method from a start by their indices, each with the memory that it leaves. -/
def newton (s : Equations Float μ) (start : Vec2 Float) (memory : μ) : ℕ → Option (Visit × μ)
  | 0 => some (s.visit start memory)
  | k + 1 => (s.newton start memory k).bind fun (v, m) => (s.next? v).map (s.visit · m)

/-- Why the step from a visit leads nowhere: the first cause in order. -/
inductive Blocks (s : Equations Float μ) (v : Visit) : Failure → Prop where
  | singular (hs : v.evaluation.jacobian.solve (-v.evaluation.objective) = none) :
    Blocks s v .singular
  | nonFinite {step} (hs : v.evaluation.jacobian.solve (-v.evaluation.objective) = some step)
      (hf : (v.point + step).isFinite = false) : Blocks s v .nonFinite
  | constraintViolated {step}
      (hs : v.evaluation.jacobian.solve (-v.evaluation.objective) = some step)
      (hf : (v.point + step).isFinite = true) (hc : s.accepts (v.point + step) = false) :
    Blocks s v .constraintViolated

/-- The sequence reaches this index, and there the objective is finite and not below the accuracy. -/
def IsOpenAt (s : Equations Float μ) (accuracy : Float) (start : Vec2 Float) (memory : μ) (i : ℕ) :
    Prop :=
  ∃ v m, s.newton start memory i = some (v, m) ∧ v.evaluation.IsOpen accuracy

/-- How an attempt of so many steps allowed ends at the visit of this index, after how many steps. -/
inductive Ends (s : Equations Float μ) (accuracy : Float) (allowed k : ℕ) (v : Visit) :
    ℕ → Outcome → Prop where
  | nonFinite (hk : k ≤ allowed) (hf : v.evaluation.objective.isFinite = false) :
    Ends s accuracy allowed k v k (.failed .nonFinite)
  | converged (hk : k ≤ allowed) (hf : v.evaluation.objective.isFinite = true)
      (hr : v.evaluation.objective.norm < accuracy) :
    Ends s accuracy allowed k v k (.converged v.point v.evaluation.objective.norm)
  | exhausted (hk : k = allowed) (ho : v.evaluation.IsOpen accuracy) :
    Ends s accuracy allowed k v k (.failed .exhausted)
  | blocked {failure} (hk : k < allowed) (ho : v.evaluation.IsOpen accuracy)
      (hb : s.Blocks v failure) : Ends s accuracy allowed k v (k + 1) (.failed failure)

/-- The sequence has to be left at this index, and it is open before. -/
structure StopsAt (s : Equations Float μ) (accuracy : Float) (allowed : ℕ) (start : Vec2 Float)
    (memory : μ) (k : ℕ) (v : Visit) (steps : ℕ) (outcome : Outcome) : Prop where
  reached : ∃ m, s.newton start memory k = some (v, m)
  isOpenAt : ∀ i < k, s.IsOpenAt accuracy start memory i
  ends : s.Ends accuracy allowed k v steps outcome

variable {s : Equations Float μ} {accuracy : Float} {allowed : ℕ} {start : Vec2 Float} {memory : μ}

/-- A step leads on exactly if nothing blocks it. -/
lemma next?_eq_some {v : Visit} {next : Vec2 Float} :
    s.next? v = some next ↔ s.advance v = .ok next := by
  unfold next? advance Evaluation.step
  cases v.evaluation.jacobian.solve (-v.evaluation.objective) with
  | none => simp
  | some step =>
    cases hf : (v.point + step).isFinite with
    | false => simp [hf]
    | true => cases hc : s.accepts (v.point + step) <;> simp [hf, hc]

/-- A step is refused for the failure that blocks it. -/
lemma advance_eq_error {v : Visit} {failure : Failure} :
    s.advance v = .error failure ↔ s.Blocks v failure := by
  constructor
  · intro h
    unfold advance Evaluation.step at h
    cases hs : v.evaluation.jacobian.solve (-v.evaluation.objective) with
    | none =>
      rw [hs] at h
      cases h
      exact .singular hs
    | some step =>
      simp only [hs] at h
      cases hf : (v.point + step).isFinite with
      | false =>
        simp only [hf] at h
        cases h
        exact .nonFinite hs hf
      | true =>
        cases hc : s.accepts (v.point + step) with
        | false =>
          simp only [hf, hc] at h
          cases h
          exact .constraintViolated hs hf hc
        | true =>
          simp only [hf, hc] at h
          cases h
  · intro h
    unfold advance Evaluation.step
    cases h with
    | singular hs => rw [hs]
    | nonFinite hs hf => simp [hs, hf]
    | constraintViolated hs hf hc => simp [hs, hf, hc]

/-- From a blocked visit, there is no next point. -/
lemma Blocks.next?_eq {v : Visit} {failure : Failure} (h : s.Blocks v failure) :
    s.next? v = none := by
  cases hn : s.next? v with
  | none => rfl
  | some next =>
    have ha := advance_eq_error.mpr h
    rw [next?_eq_some.mp hn] at ha
    cases ha

/-- A step is blocked by one cause only. -/
lemma Blocks.unique {v : Visit} {f g : Failure} (hf : s.Blocks v f) (hg : s.Blocks v g) : f = g := by
  have h := (advance_eq_error.mpr hf).symm.trans (advance_eq_error.mpr hg)
  exact Except.error.inj h

/-- No visit is blocked because the iterations are spent. -/
lemma Blocks.ne_exhausted {v : Visit} {failure : Failure} (h : s.Blocks v failure) :
    failure ≠ .exhausted := by
  rintro rfl
  cases h

/-- The Newton sequence goes on from its last visit. -/
lemma newton_succ {k : ℕ} {v : Visit} {m : μ} (h : s.newton start memory k = some (v, m)) :
    s.newton start memory (k + 1) = (s.next? v).map (s.visit · m) := by
  rw [newton, h]
  rfl

/-- The sequence after its first step is the sequence from there. -/
lemma newton_shift {p next : Vec2 Float} {m m' : μ} {e : Evaluation Float}
    (he : s.evaluate p m = (e, m')) (hn : s.next? ⟨p, e⟩ = some next) (k : ℕ) :
    s.newton p m (k + 1) = s.newton next m' k := by
  induction k with
  | zero =>
    have h : s.newton p m 0 = some (⟨p, e⟩, m') := by rw [newton, visit, he]
    rw [newton_succ h, hn]
    rfl
  | succ k ih => rw [newton, ih, newton]

/-- The sequence has no gaps. -/
lemma exists_newton_of_le {i k : ℕ} {x : Visit × μ} (h : s.newton start memory k = some x)
    (hi : i ≤ k) : ∃ y, s.newton start memory i = some y := by
  induction k generalizing x with
  | zero =>
    obtain rfl := Nat.le_zero.mp hi
    exact ⟨x, h⟩
  | succ k ih =>
    obtain rfl | hi := Nat.of_le_succ hi |>.symm
    · exact ⟨x, h⟩
    · cases hk : s.newton start memory k with
      | none =>
        rw [newton, hk] at h
        cases h
      | some y => exact ih hk hi

/-- Where an attempt ends, an index is open only if the step from there is not to be taken. -/
lemma Ends.newton_eq_none {k : ℕ} {v : Visit} {m : μ} {steps : ℕ} {outcome : Outcome}
    (h : s.Ends accuracy allowed k v steps outcome)
    (hv : s.newton start memory k = some (v, m)) (ho : v.evaluation.IsOpen accuracy)
    (hk : k < allowed) : s.newton start memory (k + 1) = none := by
  cases h with
  | nonFinite _ hf => exact absurd ho.isFinite (by rw [hf]; nofun)
  | converged _ _ hr => exact absurd hr ho.not_lt
  | exhausted hk' => exact absurd hk' hk.ne
  | blocked _ _ hb =>
    rw [newton_succ hv, hb.next?_eq]
    rfl

/-- The sequence is left at an index that is allowed. -/
lemma Ends.le {k : ℕ} {v : Visit} {steps : ℕ} {outcome : Outcome}
    (h : s.Ends accuracy allowed k v steps outcome) : k ≤ allowed := by
  cases h with
  | nonFinite hk | converged hk => exact hk
  | exhausted hk => exact hk.le
  | blocked hk => exact hk.le

/-- At one visit, an attempt ends in one way. -/
lemma Ends.unique {k : ℕ} {v : Visit} {steps steps' : ℕ} {outcome outcome' : Outcome}
    (h : s.Ends accuracy allowed k v steps outcome)
    (h' : s.Ends accuracy allowed k v steps' outcome') : steps = steps' ∧ outcome = outcome' := by
  have hopen (ho : v.evaluation.IsOpen accuracy) (hf : v.evaluation.objective.isFinite = false) :
      False := by
    rw [ho.isFinite] at hf
    cases hf
  cases h with
  | nonFinite _ hf =>
    cases h' with
    | nonFinite => exact ⟨rfl, rfl⟩
    | converged _ hf' => rw [hf] at hf'; cases hf'
    | exhausted _ ho | blocked _ ho => exact (hopen ho hf).elim
  | converged _ hf hr =>
    cases h' with
    | nonFinite _ hf' => rw [hf] at hf'; cases hf'
    | converged => exact ⟨rfl, rfl⟩
    | exhausted _ ho | blocked _ ho => exact absurd hr ho.not_lt
  | exhausted hk ho =>
    cases h' with
    | nonFinite _ hf => exact (hopen ho hf).elim
    | converged _ _ hr => exact absurd hr ho.not_lt
    | exhausted => exact ⟨rfl, rfl⟩
    | blocked hk' => exact absurd hk hk'.ne
  | blocked hk ho hb =>
    cases h' with
    | nonFinite _ hf => exact (hopen ho hf).elim
    | converged _ _ hr => exact absurd hr ho.not_lt
    | exhausted hk' => exact absurd hk' hk.ne
    | blocked _ _ hb' => exact ⟨rfl, congrArg _ (hb.unique hb')⟩

namespace StopsAt

variable {k k' : ℕ} {v v' : Visit} {steps steps' : ℕ} {outcome outcome' : Outcome}

/-- An index at which an attempt stops is not followed by another one. -/
lemma not_lt (h : s.StopsAt accuracy allowed start memory k v steps outcome)
    (h' : s.StopsAt accuracy allowed start memory k' v' steps' outcome') : ¬k < k' := by
  intro hk
  obtain ⟨m, hv⟩ := h.reached
  obtain ⟨w, m', hw, ho⟩ := h'.isOpenAt k hk
  obtain ⟨rfl, rfl⟩ := Prod.mk.inj (Option.some.inj (hv.symm.trans hw))
  -- The step from `k` was to be taken, and it did lead on to `k'`.
  have hnone := h.ends.newton_eq_none hv ho (hk.trans_le h'.ends.le)
  obtain ⟨m', hv'⟩ := h'.reached
  obtain ⟨y, hy⟩ := exists_newton_of_le hv' hk
  rw [hnone] at hy
  cases hy

/-- The sequence is left at one index, in one way. -/
theorem unique (h : s.StopsAt accuracy allowed start memory k v steps outcome)
    (h' : s.StopsAt accuracy allowed start memory k' v' steps' outcome') :
    k = k' ∧ v = v' ∧ steps = steps' ∧ outcome = outcome' := by
  obtain rfl : k = k' := (Nat.le_of_not_lt (h'.not_lt h)).antisymm (Nat.le_of_not_lt (h.not_lt h'))
  obtain ⟨m, hv⟩ := h.reached
  obtain ⟨m', hv'⟩ := h'.reached
  obtain ⟨rfl, -⟩ := Prod.mk.inj (Option.some.inj (hv.symm.trans hv'))
  exact ⟨rfl, rfl, h.ends.unique h'.ends⟩

end StopsAt

/-- Where the sequence is left does not change when a step is made before and one more is allowed.
-/
lemma Ends.after {k : ℕ} {v : Visit} {steps : ℕ} {outcome : Outcome}
    (h : s.Ends accuracy allowed k v steps outcome) :
    s.Ends accuracy (allowed + 1) (k + 1) v (steps + 1) outcome := by
  cases h with
  | nonFinite hk hf => exact .nonFinite (Nat.succ_le_succ hk) hf
  | converged hk hf hr => exact .converged (Nat.succ_le_succ hk) hf hr
  | exhausted hk ho => exact .exhausted (congrArg Nat.succ hk) ho
  | blocked hk ho hb => exact .blocked (Nat.succ_lt_succ hk) ho hb

/-- An attempt ends where the sequence has to be left. -/
theorem IsAttempt.stopsAt {left p m} {a : Attempt μ} (h : s.IsAttempt accuracy left p m a) :
    ∃ k v, s.StopsAt accuracy left p m k v a.steps a.outcome := by
  have hzero {p m e m'} (he : s.evaluate p m = (e, m')) : s.newton p m 0 = some (⟨p, e⟩, m') := by
    rw [newton, visit, he]
  induction h with
  | nonFinite he hf => exact ⟨0, _, ⟨_, hzero he⟩, nofun, .nonFinite (Nat.zero_le _) hf⟩
  | converged he hf hr => exact ⟨0, _, ⟨_, hzero he⟩, nofun, .converged (Nat.zero_le _) hf hr⟩
  | exhausted he ho => exact ⟨0, _, ⟨_, hzero he⟩, nofun, .exhausted rfl ho⟩
  | stuck he ho ha =>
    exact ⟨0, _, ⟨_, hzero he⟩, nofun, .blocked (Nat.succ_pos _) ho (advance_eq_error.mp ha)⟩
  | @step left p m e m' next a he ho ha h ih =>
    obtain ⟨k, v, ⟨m'', hv⟩, hopen, hends⟩ := ih
    have hshift := newton_shift he (next?_eq_some.mpr ha)
    refine ⟨k + 1, v, ⟨m'', (hshift k).trans hv⟩, ?_, hends.after⟩
    intro i hi
    cases i with
    | zero => exact ⟨_, _, hzero he, ho⟩
    | succ i =>
      obtain ⟨w, m₁, hw, how⟩ := hopen i (Nat.lt_of_succ_lt_succ hi)
      exact ⟨w, m₁, (hshift i).trans hw, how⟩

/-- An attempt ends exactly as the sequence has to be left. -/
lemma attempt_iff {steps : ℕ} {outcome : Outcome} :
    (s.attempt accuracy allowed start memory).outcome = outcome ∧
      (s.attempt accuracy allowed start memory).steps = steps ↔
    ∃ k v, s.StopsAt accuracy allowed start memory k v steps outcome := by
  obtain ⟨k, v, h⟩ := (isAttempt_attempt s accuracy allowed start memory).stopsAt
  constructor
  · rintro ⟨rfl, rfl⟩
    exact ⟨k, v, h⟩
  · rintro ⟨k', v', h'⟩
    obtain ⟨-, -, hs, ho⟩ := h.unique h'
    exact ⟨ho, hs⟩

/-- It converges at the first index below the accuracy. -/
theorem attempt_converged_iff {k : ℕ} {q : Vec2 Float} {r : Float} :
    (s.attempt accuracy allowed start memory).outcome = .converged q r ∧
      (s.attempt accuracy allowed start memory).steps = k ↔
    k ≤ allowed ∧ (∀ i < k, s.IsOpenAt accuracy start memory i) ∧
      ∃ v m, s.newton start memory k = some (v, m) ∧ v.evaluation.objective.isFinite = true ∧
        v.evaluation.objective.norm < accuracy ∧ v.point = q ∧
        v.evaluation.objective.norm = r := by
  rw [attempt_iff]
  constructor
  · rintro ⟨_, v, ⟨m, hv⟩, hopen, hends⟩
    cases hends with
    | converged hk hf hr => exact ⟨hk, hopen, v, m, hv, hf, hr, rfl, rfl⟩
  · rintro ⟨hk, hopen, v, m, hv, hf, hr, rfl, rfl⟩
    exact ⟨k, v, ⟨m, hv⟩, hopen, .converged hk hf hr⟩

/-- It is exhausted if all indices that it may reach are open. -/
theorem attempt_exhausted_iff :
    (s.attempt accuracy allowed start memory).outcome = .failed .exhausted ↔
      ∀ i ≤ allowed, s.IsOpenAt accuracy start memory i := by
  constructor
  · intro h
    obtain ⟨k, v, ⟨m, hv⟩, hopen, hends⟩ := attempt_iff.mp ⟨h, rfl⟩
    generalize (s.attempt accuracy allowed start memory).steps = steps at hends
    intro i hi
    cases hends with
    | exhausted hk ho =>
      subst hk
      obtain rfl | hlt := hi.eq_or_lt
      · exact ⟨v, m, hv, ho⟩
      · exact hopen i hlt
    | blocked _ _ hb => exact absurd rfl hb.ne_exhausted
  · intro h
    obtain ⟨v, m, hv, ho⟩ := h allowed le_rfl
    have hstops : s.StopsAt accuracy allowed start memory allowed v allowed (.failed .exhausted) :=
      ⟨⟨m, hv⟩, fun i hi => h i hi.le, .exhausted rfl ho⟩
    exact (attempt_iff.mpr ⟨_, _, hstops⟩).1

/-- Any other failure is that of the first evaluation or step that fails. -/
theorem attempt_failed_iff {failure : Failure} (hne : failure ≠ .exhausted) {steps : ℕ} :
    (s.attempt accuracy allowed start memory).outcome = .failed failure ∧
      (s.attempt accuracy allowed start memory).steps = steps ↔
    ∃ k v m, s.newton start memory k = some (v, m) ∧
      (∀ i < k, s.IsOpenAt accuracy start memory i) ∧
      (k ≤ allowed ∧ v.evaluation.objective.isFinite = false ∧ failure = .nonFinite ∧
          steps = k ∨
        k < allowed ∧ v.evaluation.IsOpen accuracy ∧ s.Blocks v failure ∧ steps = k + 1) := by
  rw [attempt_iff]
  constructor
  · rintro ⟨k, v, ⟨m, hv⟩, hopen, hends⟩
    refine ⟨k, v, m, hv, hopen, ?_⟩
    cases hends with
    | nonFinite hk hf => exact .inl ⟨hk, hf, rfl, rfl⟩
    | exhausted => exact absurd rfl hne
    | blocked hk ho hb => exact .inr ⟨hk, ho, hb, rfl⟩
  · rintro ⟨k, v, m, hv, hopen, ⟨hk, hf, rfl, rfl⟩ | ⟨hk, ho, hb, rfl⟩⟩
    · exact ⟨_, v, ⟨m, hv⟩, hopen, .nonFinite hk hf⟩
    · exact ⟨_, v, ⟨m, hv⟩, hopen, .blocked hk ho hb⟩

/--
Newton's sequence says how the attempt from a start ends, if both budgets leave an iteration. It
converges after `k` steps exactly if `k` is allowed, the sequence reaches it over finite objectives, and
it is the first index below the accuracy. It is exhausted, after all steps that the budgets allow, exactly
if the sequence reaches all their indices and is open at each. Any other failure is that of the first
objective that is not finite, or of the first step that is blocked while steps are left.
-/
theorem attempt_reference (s : Equations Float μ) {c : Config} {measures : Measures}
    (hp : 0 < c.iterationsPerTry.toNat)
    (hb : measures.totalIterations < c.iterationsTotal.toNat) (start : Vec2 Float) (memory : μ) :
    let budget := c.iterationsTotal.toNat - measures.totalIterations
    let allowed := min c.iterationsPerTry.toNat budget
    let a := s.attempt c.accuracy allowed start memory
    1 ≤ allowed ∧ s.attempt? c budget start memory = some a ∧
    (∀ k q r, a.outcome = .converged q r ∧ a.steps = k ↔ k ≤ allowed ∧
      (∀ i < k, s.IsOpenAt c.accuracy start memory i) ∧
      ∃ v m, s.newton start memory k = some (v, m) ∧ v.evaluation.objective.isFinite = true ∧
        v.evaluation.objective.norm < c.accuracy ∧ v.point = q ∧
        v.evaluation.objective.norm = r) ∧
    (a.outcome = .failed .exhausted ↔
      ∀ i ≤ allowed, s.IsOpenAt c.accuracy start memory i) ∧
    (a.outcome = .failed .exhausted → a.steps = allowed) ∧
    ∀ failure ≠ .exhausted, ∀ steps, a.outcome = .failed failure ∧ a.steps = steps ↔
      ∃ k v m, s.newton start memory k = some (v, m) ∧
        (∀ i < k, s.IsOpenAt c.accuracy start memory i) ∧
        (k ≤ allowed ∧ v.evaluation.objective.isFinite = false ∧ failure = .nonFinite ∧
            steps = k ∨
          k < allowed ∧ v.evaluation.IsOpen c.accuracy ∧ s.Blocks v failure ∧
            steps = k + 1) := by
  intro budget allowed a
  have ha : s.IsAttempt c.accuracy allowed start memory a := isAttempt_attempt ..
  refine ⟨lt_min hp (Nat.sub_pos_of_lt hb), ha.attempt?_eq, ?_, attempt_exhausted_iff,
    ha.steps_of_exhausted, ?_⟩
  · intro k q r
    exact attempt_converged_iff
  · intro failure hne steps
    exact attempt_failed_iff hne

end Equations

namespace Solver

/-- From `(1, 1)`, the crossing is reached by the only step that is allowed. -/
theorem crossing_reference :
    0 < once.iterationsPerTry.toNat ∧ 0 < once.iterationsTotal.toNat ∧
    ∃ v m, (crossing once).system.newton ⟨1.0, 1.0⟩ () 1 = some (v, m) ∧
      v.evaluation.objective.norm < once.accuracy ∧
      (crossing once).system.IsOpenAt once.accuracy ⟨1.0, 1.0⟩ () 0 := by
  have hp : 0 < once.iterationsPerTry.toNat := by decide
  have hb : ({} : Measures).totalIterations < once.iterationsTotal.toNat := by decide
  obtain ⟨-, -, hconverged, -⟩ :=
    (crossing once).system.attempt_reference hp hb ⟨1.0, 1.0⟩ ()
  have hs : ((crossing once).system.attempt once.accuracy 1 ⟨1.0, 1.0⟩ ()).steps = 1 := by
    decide +kernel
  have hf :
      ((crossing once).system.attempt once.accuracy 1 ⟨1.0, 1.0⟩ ()).outcome.failure? = none := by
    decide +kernel
  obtain ⟨q, r, ho⟩ := Outcome.exists_converged hf
  obtain ⟨-, hopen, v, m, hv, -, hr, -⟩ := (hconverged 1 q r).mp ⟨ho, hs⟩
  exact ⟨hp, hb, v, m, hv, hr, hopen 0 Nat.zero_lt_one⟩

end Solver

end PlanarNewton
