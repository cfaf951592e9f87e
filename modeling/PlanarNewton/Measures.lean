import PlanarNewton.Decimal.Layout
import PlanarNewton.Text.Box

/-!
# Measures

What a solve reports about itself: how many attempts and iterations it took, how many start points
were refused, why attempts failed, and the residual of the solution. `Measures.record` is the ledger
entry of one attempt; an attempt that fails before its first step is charged one iteration, so that
every failure spends budget.
-/

namespace PlanarNewton

/-- Why an attempt was given up. -/
inductive Failure where
  /-- The Jacobian has no usable inverse. -/
  | singular
  /-- An objective or the next point is not finite. -/
  | nonFinite
  /-- The next point, or every sampled start, is refused by a constraint. -/
  | constraintViolated
  /-- The iterations of the attempt, or all of them, are spent. -/
  | exhausted
deriving DecidableEq, Repr

/-- The name of a failure in a log record. -/
def Failure.name : Failure → String
  | .singular => "Singular"
  | .nonFinite => "NonFinite"
  | .constraintViolated => "ConstraintViolated"
  | .exhausted => "Exhausted"

/-- How often each kind of failure occurred. -/
structure FailureCounts where
  singular : Nat := 0
  nonFinite : Nat := 0
  constraintViolated : Nat := 0
  exhausted : Nat := 0
deriving DecidableEq, Repr

namespace FailureCounts

/-- Counts one more failure. -/
def record (c : FailureCounts) : Failure → FailureCounts
  | .singular => { c with singular := c.singular + 1 }
  | .nonFinite => { c with nonFinite := c.nonFinite + 1 }
  | .constraintViolated => { c with constraintViolated := c.constraintViolated + 1 }
  | .exhausted => { c with exhausted := c.exhausted + 1 }

/-- How often this kind of failure occurred. -/
def count (c : FailureCounts) : Failure → Nat
  | .singular => c.singular
  | .nonFinite => c.nonFinite
  | .constraintViolated => c.constraintViolated
  | .exhausted => c.exhausted

/-- How many failures occurred, of all kinds. -/
def total (c : FailureCounts) : Nat :=
  c.singular + c.nonFinite + c.constraintViolated + c.exhausted

end FailureCounts

/-- A span of time: whole seconds and the nanoseconds beyond them. -/
structure Duration where
  seconds : UInt64 := 0
  nanoseconds : UInt32 := 0
deriving DecidableEq, Repr

/-- The span in milliseconds, with the rounding of doubles. -/
def Duration.milliseconds (d : Duration) : Float :=
  (d.seconds.toFloat + d.nanoseconds.toFloat / 1e9) * 1e3

/-- The report of one solve. -/
structure Measures where
  /-- The starts iterated from, and a sampling that was given up. -/
  attempts : Nat := 0
  /-- The iterations charged for the last attempt. -/
  iterations : Nat := 0
  /-- The iterations charged for all attempts. -/
  totalIterations : Nat := 0
  /-- The sampled points that a constraint refused. -/
  rejectedStarts : Nat := 0
  failures : FailureCounts := {}
  /-- The length of `(F, G)` at the solution. -/
  residual : Option Float := none
  elapsed : Duration := {}
deriving Repr

namespace Measures

/-- The solve found a solution. -/
def converged (m : Measures) : Bool :=
  m.residual.isSome

/-- The iterations that an attempt of the given number of steps is charged for. -/
def charge (steps : Nat) : Option Failure → Nat
  | none => steps
  | some _ => max steps 1

/-- The entry of one attempt: the steps it took, and its failure if it failed. -/
def record (m : Measures) (steps : Nat) (failure : Option Failure) : Measures :=
  { m with
    attempts := m.attempts + 1
    iterations := charge steps failure
    totalIterations := m.totalIterations + charge steps failure
    failures := failure.elim m.failures m.failures.record }

/-- The entry of a sampling that was given up: a failed attempt that costs no iteration. -/
def recordGiveUp (m : Measures) : Measures :=
  { m with
    attempts := m.attempts + 1
    failures := m.failures.record .constraintViolated }

/-- The names and values of the report. -/
def statistics (m : Measures) : List (String × String) :=
  [("attempts", toString m.attempts),
   ("iterations in last attempt", toString m.iterations),
   ("total iterations", toString m.totalIterations),
   ("rejected start points", toString m.rejectedStarts),
   ("singular jacobian", toString m.failures.singular),
   ("non-finite values", toString m.failures.nonFinite),
   ("constraint violations", toString m.failures.constraintViolated),
   ("exhausted tries", toString m.failures.exhausted),
   ("residual", m.residual.elim "no solution" scientific),
   ("time elapsed, ms", Decimal.fixed 3 m.elapsed.milliseconds)]

/-- The report as a boxed table. -/
def table (m : Measures) : String :=
  Text.box (("measure", "value") :: m.statistics)

end Measures

end PlanarNewton
