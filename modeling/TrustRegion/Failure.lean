import TrustRegion.Scalar.Ieee

/-!
Why a call can fail: an inadmissible argument, a right-hand side that is not finite, or a
collaborator that gives up. Numerical degeneracy met while iterating is no failure; a solve reports
it as the reason why it stopped.
-/
namespace TrustRegion

inductive Failure where
  | invalidArgument (parameter value reason : String)
  | nonFiniteRightHandSide (value : Float)
  | dimensionMismatch (expected actual : String)
  | operatorFailure (reason : String)
  | numericalError (reason : String)

namespace Failure

def lengths (expected actual : Nat) : Failure := .dimensionMismatch s!"{expected}" s!"{actual}"

def message : Failure → String
  | invalidArgument parameter value reason => s!"Invalid argument `{parameter}` = {value}: {reason}"
  | nonFiniteRightHandSide value =>
    s!"Right-hand side is not finite: r^T r = " ++ Decimal.plain value
  | dimensionMismatch expected actual =>
    s!"Dimension mismatch: expected {expected}, got {actual}"
  | operatorFailure reason => s!"Operator failure: {reason}"
  | numericalError reason => s!"Numerical instability detected: {reason}"

/-- Whether the caller is at fault: the configuration or the right-hand side. -/
def isPreconditionViolation : Failure → Bool
  | invalidArgument .. | nonFiniteRightHandSide .. => true
  | _ => false

end Failure

end TrustRegion
