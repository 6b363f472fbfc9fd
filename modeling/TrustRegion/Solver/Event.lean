import TrustRegion.Solver.Reason
import TrustRegion.Space.Interrupted

/-!
What happens in a solve, as values: calls of the collaborators, residual norms, answers of the
convergence test, notes, and the end. Histories, monitors, logs and counts are read off the events
of a solve and cannot influence it.
-/
namespace TrustRegion

inductive Callee where
  | space (op : SpaceOp)
  | operator
  | preconditioner
  deriving DecidableEq, Repr

/-- What the solve itself notes. The radius is not part of a note: it is known of the solve. -/
inductive Note (T : Type) where
  | badPreconditioner (rz : T)
  | indefinitePreconditioner (rz : T)
  | initialResidual (norm : T) (verdict : Verdict)
  | badOperator (curvature : T)
  | negativeCurvature (curvature : T)
  | pass (iteration : Nat) (alpha curvature nextSq : T)
  | constrainedStep
  | turnedIndefinite (rz : T)
  | truncatedStep (norm : T)
  | testDiverged (why : Divergence)
  | recurrence (iteration : Nat) (rz beta : T)
  | breakdown (beta : T)
  | iterationLimit (iteration : Nat)

inductive Event (T : Type) where
  | called (callee : Callee) (failure? : Option Failure)
  | residual (iteration : Nat) (norm : T)
  | evaluated (iteration : Nat) (norm : T) (verdict : Verdict) (remark? : Option (Remark T))
  | noted (note : Note T)
  | terminated (reason : Reason) (iterations : Nat)

namespace Event

variable {T : Type}

def residuals (events : List (Event T)) : List (Nat × T) :=
  events.filterMap fun
    | residual iteration norm => some (iteration, norm)
    | _ => none

def evaluations (events : List (Event T)) : List (Nat × T × Verdict) :=
  events.filterMap fun
    | evaluated iteration norm verdict _ => some (iteration, norm, verdict)
    | _ => none

/-- The calls of the collaborators, with the failures. -/
def calls (events : List (Event T)) : List (Callee × Option Failure) :=
  events.filterMap fun
    | called callee failure? => some (callee, failure?)
    | _ => none

/-- The number of applications of the operator or of the preconditioner, or of calls of an
operation of the space. -/
def callCount (callee : Callee) (events : List (Event T)) : Nat :=
  (calls events).countP fun (c, _) => c = callee

end Event

end TrustRegion
