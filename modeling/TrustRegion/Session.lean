import TrustRegion.Solver.Basic
import TrustRegion.Convergence.Criterion

/-!
A solver together with the convergence test that all its solves share.
-/
namespace TrustRegion

structure Session (T : Type) where
  solver : Solver T
  criterion : Criterion T

namespace Session

variable {T V S H P : Type} [Scalar T]

/-- A solve under the current test, whose state it leaves to the next one. -/
def solve [VectorSpace T V S] [ActsOn V H] [ActsOn V P] (session : Session T) (space : S)
    (operator : H) (preconditioner : P) (rhs : V) (maxIterations : Nat) :
    Solved T V S H P (Criterion T) × Session T :=
  let test := session.criterion
  let solved := session.solver.solve { space, operator, preconditioner, test } rhs maxIterations
  (solved, { solver := solved.solver, criterion := solved.collaborators.test })

/-- Replaces the solver by a new one without monitors. -/
def renew (session : Session T) (settings : Settings T) : Except Failure (Session T) :=
  (Solver.create settings).map fun solver => { session with solver }

end Session

end TrustRegion
