import TrustRegion.Convergence.Basic

/-!
Why a solve stopped.
-/
namespace TrustRegion

inductive Reason where
  | negativeCurvature
  /-- The step was cut off at the boundary of the trust region. -/
  | constrainedStep
  | converged (why : Success)
  | diverged (why : Divergence)
  /-- The preconditioner gave a product that is not finite. -/
  | badPreconditioner
  | indefinitePreconditioner
  /-- The operator gave a curvature that is not finite. -/
  | badOperator
  /-- The coefficient of the recurrence vanished or is not finite. -/
  | breakdown
  | iterationLimit
  deriving DecidableEq, Repr

namespace Reason

def all : List Reason :=
  [negativeCurvature, constrainedStep] ++
    Success.all.map converged ++ Divergence.all.map diverged ++
    [badPreconditioner, indefinitePreconditioner, badOperator, breakdown, iterationLimit]

def isSuccess : Reason → Bool
  | negativeCurvature | constrainedStep | converged _ => true
  | _ => false

def name : Reason → String
  | negativeCurvature => "negative curvature"
  | constrainedStep => "constrained step"
  | converged .relativeTolerance => "converged (rtol)"
  | converged .absoluteTolerance => "converged (atol)"
  | converged .stepTooSmall => "converged (step tolerance)"
  | diverged .growth => "diverged (dtol)"
  | diverged .notFinite => "diverged (NaN or Inf)"
  | badPreconditioner => "bad preconditioner"
  | indefinitePreconditioner => "indefinite preconditioner"
  | badOperator => "bad operator"
  | breakdown => "breakdown"
  | iterationLimit => "iteration limit"

def code : Reason → String
  | negativeCurvature => "NegativeCurvature"
  | constrainedStep => "ConstrainedStep"
  | converged why => s!"Converged({why.code})"
  | diverged why => s!"Diverged({why.code})"
  | badPreconditioner => "BadPreconditioner"
  | indefinitePreconditioner => "IndefinitePreconditioner"
  | badOperator => "BadOperator"
  | breakdown => "Breakdown"
  | iterationLimit => "IterationLimit"

end Reason

end TrustRegion
