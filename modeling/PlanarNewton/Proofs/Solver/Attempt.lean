import Mathlib.Tactic
import PlanarNewton.Solver.Attempt

/-!
# Derivations of attempts

`IsAttempt` describes an attempt by a rule for each way that it goes on or ends, without the lists and
counters that the loop carries along. The loop makes exactly the attempt that has a derivation
(`isAttempt_attempt`, `IsAttempt.eq`), so that facts about attempts go by induction on derivations:
what a converged attempt found (`IsAttempt.sound`), how many steps it took, that its visits are
evaluations of the system in order (`IsAttempt.replay`), and that more steps allowed make no difference
to an attempt that did not run out of them (`IsAttempt.mono`).
-/

namespace PlanarNewton

variable {μ : Type}

/-- The attempt that goes on as `a` after a step from the visit `v`. -/
def Attempt.after (v : Visit) (a : Attempt μ) : Attempt μ :=
  { a with visits := v :: a.visits, steps := a.steps + 1 }

/-- An evaluation from which an attempt goes on: finite, and not yet below the accuracy. -/
structure Evaluation.IsOpen (accuracy : Float) (e : Evaluation Float) : Prop where
  isFinite : e.objective.isFinite = true
  not_lt : ¬e.objective.norm < accuracy

/-- A visit that makes its point a solution. -/
structure Equations.IsSolution (s : Equations Float μ) (accuracy : Float) (v : Visit) : Prop where
  point_isFinite : v.point.isFinite = true
  accepts : s.accepts v.point = true
  objective_isFinite : v.evaluation.objective.isFinite = true
  norm_lt : v.evaluation.objective.norm < accuracy

namespace Equations

/-- Evaluates the system at the points in order, each time with the memory that was left before. -/
def replay (s : Equations Float μ) : List (Vec2 Float) → μ → List Visit × μ
  | [], m => ([], m)
  | p :: ps, m =>
    let (e, m) := s.evaluate p m
    let (visits, m) := s.replay ps m
    (⟨p, e⟩ :: visits, m)

variable {s : Equations Float μ} {accuracy : Float}

/-- The attempt with so many steps allowed, from a point and a memory. -/
inductive IsAttempt (s : Equations Float μ) (accuracy : Float) :
    ℕ → Vec2 Float → μ → Attempt μ → Prop where
  | nonFinite {left p m e m'} (he : s.evaluate p m = (e, m')) (hf : e.objective.isFinite = false) :
    IsAttempt s accuracy left p m ⟨[⟨p, e⟩], 0, .failed .nonFinite, m'⟩
  | converged {left p m e m'} (he : s.evaluate p m = (e, m')) (hf : e.objective.isFinite = true)
      (hr : e.objective.norm < accuracy) :
    IsAttempt s accuracy left p m ⟨[⟨p, e⟩], 0, .converged p e.objective.norm, m'⟩
  | exhausted {p m e m'} (he : s.evaluate p m = (e, m')) (ho : e.IsOpen accuracy) :
    IsAttempt s accuracy 0 p m ⟨[⟨p, e⟩], 0, .failed .exhausted, m'⟩
  | stuck {left p m e m' failure} (he : s.evaluate p m = (e, m')) (ho : e.IsOpen accuracy)
      (ha : s.advance ⟨p, e⟩ = .error failure) :
    IsAttempt s accuracy (left + 1) p m ⟨[⟨p, e⟩], 1, .failed failure, m'⟩
  | step {left p m e m' next a} (he : s.evaluate p m = (e, m')) (ho : e.IsOpen accuracy)
      (ha : s.advance ⟨p, e⟩ = .ok next) (h : IsAttempt s accuracy left next m' a) :
    IsAttempt s accuracy (left + 1) p m (a.after ⟨p, e⟩)

/-- One turn of an attempt, by what the evaluation at its point says. -/
lemma iterate_turn {left p m e m' steps visits} (he : s.evaluate p m = (e, m')) :
    s.iterate accuracy left p m steps visits =
      if e.objective.isFinite = false then
        ⟨visits.reverse ++ [⟨p, e⟩], steps, .failed .nonFinite, m'⟩
      else if e.objective.norm < accuracy then
        ⟨visits.reverse ++ [⟨p, e⟩], steps, .converged p e.objective.norm, m'⟩
      else match left with
        | 0 => ⟨visits.reverse ++ [⟨p, e⟩], steps, .failed .exhausted, m'⟩
        | left + 1 =>
          match s.advance ⟨p, e⟩ with
          | .error failure => ⟨visits.reverse ++ [⟨p, e⟩], steps + 1, .failed failure, m'⟩
          | .ok next => s.iterate accuracy left next m' (steps + 1) (⟨p, e⟩ :: visits) := by
  rw [iterate, he]
  cases hf : e.objective.isFinite with
  | false => simp [hf]
  | true =>
    by_cases hr : e.objective.norm < accuracy
    · simp [hf, hr]
    · cases left with
      | zero => simp [hf, hr]
      | succ left => cases ha : s.advance ⟨p, e⟩ <;> simp [hf, hr, ha]

/-- A replay evaluates at the first point, and goes on with the memory that this leaves. -/
lemma replay_cons {p m e m'} (he : s.evaluate p m = (e, m')) (ps : List (Vec2 Float)) :
    s.replay (p :: ps) m = (⟨p, e⟩ :: (s.replay ps m').1, (s.replay ps m').2) := by
  rw [replay, he]

/-- A replay can be split into two. -/
lemma replay_append (ps qs : List (Vec2 Float)) (m : μ) :
    s.replay (ps ++ qs) m =
      ((s.replay ps m).1 ++ (s.replay qs (s.replay ps m).2).1,
        (s.replay qs (s.replay ps m).2).2) := by
  induction ps generalizing m with
  | nil => rfl
  | cons p ps ih =>
    rw [List.cons_append, replay_cons rfl, replay_cons rfl, ih]
    rfl

/-- A step leads to the point and the step added, which is finite and accepted. -/
lemma advance_ok {v : Visit} {next : Vec2 Float} (h : s.advance v = .ok next) :
    ∃ step, v.evaluation.step = some step ∧ next = v.point + step ∧ next.isFinite = true ∧
      s.accepts next = true := by
  unfold advance at h
  split at h
  · cases h
  · rename_i step hs
    simp only at h
    split at h
    · cases h
    · rename_i hf
      split at h
      · cases h
      · rename_i hc
        cases h
        rw [Bool.not_eq_true', Bool.not_eq_false] at hf hc
        exact ⟨step, hs, rfl, hf, hc⟩

/-- No step is refused because the iterations are spent. -/
lemma advance_ne_exhausted (v : Visit) : s.advance v ≠ .error .exhausted := by
  unfold advance
  split
  · nofun
  · simp only
    split
    · nofun
    · split <;> nofun

/-- What the loop carries along only stands before what it adds. -/
lemma iterate_eq (left : ℕ) (p : Vec2 Float) (m : μ) (steps : ℕ) (visits : List Visit) :
    s.iterate accuracy left p m steps visits =
      let a := s.attempt accuracy left p m
      ⟨visits.reverse ++ a.visits, steps + a.steps, a.outcome, a.memory⟩ := by
  obtain ⟨e, m', he⟩ : ∃ e m', s.evaluate p m = (e, m') := ⟨_, _, rfl⟩
  -- By induction on the steps left; the next turn starts from longer lists, so these stay general.
  induction left generalizing p m steps visits e m' with
  | zero =>
    rw [attempt, iterate_turn he, iterate_turn he]
    split
    · rfl
    · split <;> rfl
  | succ left ih =>
    rw [attempt, iterate_turn he, iterate_turn he]
    split
    · rfl
    · split
      · rfl
      · cases s.advance ⟨p, e⟩ with
        | error failure => rfl
        | ok next =>
          have h := fun steps visits => ih next m' steps visits _ _ rfl
          simp only [h, List.reverse_cons, List.append_assoc, Nat.add_assoc, Nat.zero_add,
            List.reverse_nil, List.nil_append]

/-- The first turn of an attempt. -/
lemma attempt_eq {left p m e m'} (he : s.evaluate p m = (e, m')) :
    s.attempt accuracy left p m =
      if e.objective.isFinite = false then ⟨[⟨p, e⟩], 0, .failed .nonFinite, m'⟩
      else if e.objective.norm < accuracy then ⟨[⟨p, e⟩], 0, .converged p e.objective.norm, m'⟩
      else match left with
        | 0 => ⟨[⟨p, e⟩], 0, .failed .exhausted, m'⟩
        | left + 1 =>
          match s.advance ⟨p, e⟩ with
          | .error failure => ⟨[⟨p, e⟩], 1, .failed failure, m'⟩
          | .ok next => (s.attempt accuracy left next m').after ⟨p, e⟩ := by
  rw [attempt, iterate_turn he]
  cases left with
  | zero => rfl
  | succ left =>
    cases s.advance ⟨p, e⟩ with
    | error failure => rfl
    | ok next =>
      simp only [iterate_eq left next m', Nat.add_comm (0 + 1)]
      rfl

/-- What `attempt` computes has a derivation. -/
theorem isAttempt_attempt (s : Equations Float μ) (accuracy : Float) (left : ℕ) (p : Vec2 Float)
    (m : μ) : IsAttempt s accuracy left p m (s.attempt accuracy left p m) := by
  induction left generalizing p m with
  | zero =>
    obtain ⟨e, m', he⟩ : ∃ e m', s.evaluate p m = (e, m') := ⟨_, _, rfl⟩
    rw [attempt_eq he]
    split
    · exact .nonFinite he ‹_›
    · rename_i hf
      rw [Bool.not_eq_false] at hf
      split
      · exact .converged he hf ‹_›
      · exact .exhausted he ⟨hf, ‹_›⟩
  | succ left ih =>
    obtain ⟨e, m', he⟩ : ∃ e m', s.evaluate p m = (e, m') := ⟨_, _, rfl⟩
    rw [attempt_eq he]
    split
    · exact .nonFinite he ‹_›
    · rename_i hf
      rw [Bool.not_eq_false] at hf
      split
      · exact .converged he hf ‹_›
      · cases ha : s.advance ⟨p, e⟩ with
        | error failure => exact .stuck he ⟨hf, ‹_›⟩ ha
        | ok next => exact .step he ⟨hf, ‹_›⟩ ha (ih next m')

namespace IsAttempt

/-- An attempt with a derivation is the one that `attempt` computes. -/
theorem eq {left p m a} (h : IsAttempt s accuracy left p m a) : s.attempt accuracy left p m = a := by
  induction h with
  | nonFinite he hf => rw [attempt_eq he, if_pos hf]
  | converged he hf hr => rw [attempt_eq he, if_neg (Bool.not_eq_false _ ▸ hf), if_pos hr]
  | exhausted he ho =>
    rw [attempt_eq he, if_neg (Bool.not_eq_false _ ▸ ho.isFinite), if_neg ho.not_lt]
  | stuck he ho ha =>
    rw [attempt_eq he, if_neg (Bool.not_eq_false _ ▸ ho.isFinite), if_neg ho.not_lt]
    simp only [ha]
  | step he ho ha h ih =>
    rw [attempt_eq he, if_neg (Bool.not_eq_false _ ▸ ho.isFinite), if_neg ho.not_lt]
    simp only [ha, ih]

/-- The visits of an attempt are what the system answers at its points, in order. -/
lemma replay {left p m a} (h : IsAttempt s accuracy left p m a) :
    s.replay (a.visits.map (·.point)) m = (a.visits, a.memory) := by
  induction h with
  | nonFinite he | converged he | exhausted he | stuck he => exact replay_cons he []
  | step he ho ha h ih =>
    refine (replay_cons he _).trans ?_
    rw [ih]
    rfl

/-- The first visit of an attempt is at its start. -/
lemma head?_visits {left p m a} (h : IsAttempt s accuracy left p m a) :
    a.visits.head?.map (·.point) = some p := by
  cases h <;> rfl

/-- What an attempt from a finite, accepted start converges to is a solution, visited last. -/
lemma sound {left p m a q r} (h : IsAttempt s accuracy left p m a) (hp : p.isFinite = true)
    (hc : s.accepts p = true) (ho : a.outcome = .converged q r) :
    ∃ v, a.visits.getLast? = some v ∧ s.IsSolution accuracy v ∧ v.point = q ∧
      v.evaluation.objective.norm = r := by
  induction h with
  | nonFinite he hf => cases ho
  | converged he hf hr =>
    cases ho
    exact ⟨_, rfl, ⟨hp, hc, hf, hr⟩, rfl, rfl⟩
  | exhausted he => cases ho
  | stuck he => cases ho
  | step he _ ha h ih =>
    -- What the induction needs of the next point is what the step has checked.
    obtain ⟨_, -, -, hf, hc⟩ := advance_ok ha
    obtain ⟨v, hv, hs⟩ := ih hf hc ho
    refine ⟨v, ?_, hs⟩
    rw [Attempt.after, List.getLast?_cons, hv]
    rfl

/-- An attempt makes no more steps than it is allowed. -/
lemma steps_le {left p m a} (h : IsAttempt s accuracy left p m a) : a.steps ≤ left := by
  induction h with
  | nonFinite | converged | exhausted => exact Nat.zero_le _
  | stuck => exact Nat.succ_le_succ (Nat.zero_le _)
  | step _ _ _ _ ih => exact Nat.succ_le_succ ih

/-- An attempt that is exhausted took all the steps it was allowed. -/
lemma steps_of_exhausted {left p m a} (h : IsAttempt s accuracy left p m a)
    (ho : a.outcome = .failed .exhausted) : a.steps = left := by
  induction h with
  | nonFinite | converged => cases ho
  | exhausted => rfl
  | stuck _ _ ha =>
    -- A step that fails has its own reasons.
    cases ho
    exact absurd ha (advance_ne_exhausted _)
  | step _ _ _ _ ih => exact congrArg Nat.succ (ih ho)

/-- To an attempt that did not run out of steps, more of them make no difference. -/
lemma mono {left left' p m a} (h : IsAttempt s accuracy left p m a) (hl : left ≤ left')
    (ho : a.outcome ≠ .failed .exhausted) : IsAttempt s accuracy left' p m a := by
  induction h generalizing left' with
  | nonFinite he hf => exact .nonFinite he hf
  | converged he hf hr => exact .converged he hf hr
  | exhausted => exact absurd rfl ho
  | stuck he hopen ha =>
    obtain ⟨k, rfl⟩ := Nat.exists_eq_add_of_lt hl
    exact .stuck he hopen ha
  | step he hopen ha h ih =>
    obtain ⟨k, rfl⟩ := Nat.exists_eq_add_of_lt hl
    exact .step he hopen ha (ih (by omega) ho)

end IsAttempt

end Equations

end PlanarNewton
