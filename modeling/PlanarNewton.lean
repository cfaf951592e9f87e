import PlanarNewton.Formula.System
import PlanarNewton.Main
import PlanarNewton.Proofs.Binary64.Nearest
import PlanarNewton.Proofs.Binary64.Packing
import PlanarNewton.Proofs.Binary64.Rounding
import PlanarNewton.Proofs.Binary64.Arithmetic
import PlanarNewton.Proofs.Binary64.Order
import PlanarNewton.Proofs.Binary64.Algebra
import PlanarNewton.Proofs.Binary64.Hypotenuse
import PlanarNewton.Proofs.Binary64.Zero
import PlanarNewton.Proofs.Random.Uniform
import PlanarNewton.Proofs.Solver.Attempt
import PlanarNewton.Proofs.Solver.Budget
import PlanarNewton.Proofs.Solver.Ledger
import PlanarNewton.Proofs.Solver.Soundness
import PlanarNewton.Proofs.Plane.Values
import PlanarNewton.Proofs.Rewriting.Run
import PlanarNewton.Proofs.Random.Stream
import PlanarNewton.Proofs.Solver.Session
import PlanarNewton.Proofs.Solver.Stream
import PlanarNewton.Proofs.Solver.Accuracy
import PlanarNewton.Proofs.Solver.Domain
import PlanarNewton.Proofs.Solver.Cost
import PlanarNewton.Proofs.Solver.Checked
import PlanarNewton.Proofs.Solver.Safety
import PlanarNewton.Proofs.Solver.Reachable
import PlanarNewton.Proofs.Solver.Observation
import PlanarNewton.Proofs.Solver.Seeding
import PlanarNewton.Proofs.Solver.Newton
import PlanarNewton.Proofs.Solver.Journal
import PlanarNewton.Proofs.Solver.Trace
import PlanarNewton.Proofs.Solver.Levels
import PlanarNewton.Proofs.Binary64.Increment
import PlanarNewton.Proofs.Summation.Recurrence
import PlanarNewton.Proofs.Plane.Determinant
import PlanarNewton.Proofs.Plane.Scaling
import PlanarNewton.Proofs.Solver.SearchBox
import PlanarNewton.Proofs.Binary64.Bounds
import PlanarNewton.Proofs.Summation.Domain
import PlanarNewton.Proofs.Summation.Master
import PlanarNewton.Proofs.Plane.Exact
import PlanarNewton.Proofs.Solver.Affine
import PlanarNewton.Proofs.Rational.Trajectory
import PlanarNewton.Proofs.Rational.Quadratics
import PlanarNewton.Proofs.Binary64.Integer
import PlanarNewton.Proofs.Sampling.Comparison
import PlanarNewton.Proofs.Sampling.Agreement
import PlanarNewton.Proofs.Rational.Difference
import PlanarNewton.Proofs.Binary64.Scientific
import PlanarNewton.Proofs.Decimal.Reading
import PlanarNewton.Proofs.PointTable
import PlanarNewton.Proofs.Log.Calls
import PlanarNewton.Proofs.Log.Names
