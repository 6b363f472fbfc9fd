import TrustRegion.Scalar.Ieee

/-!
Convergence tests: what they answer, what they remark, and how a solve asks them.
-/
namespace TrustRegion

inductive Success where
  | relativeTolerance
  | absoluteTolerance
  | stepTooSmall
  deriving DecidableEq, Repr

inductive Divergence where
  | growth
  | notFinite
  deriving DecidableEq, Repr

inductive Verdict where
  | iterating
  | converged (why : Success)
  | diverged (why : Divergence)
  deriving DecidableEq, Repr

namespace Success

def all : List Success := [relativeTolerance, absoluteTolerance, stepTooSmall]

def code : Success → String
  | relativeTolerance => "RelativeTolerance"
  | absoluteTolerance => "AbsoluteTolerance"
  | stepTooSmall => "StepTooSmallRelativeToIterate"

def text : Success → String
  | relativeTolerance => "relative tolerance"
  | absoluteTolerance => "absolute tolerance"
  | stepTooSmall => "step too small"

end Success

namespace Divergence

def all : List Divergence := [growth, notFinite]

def code : Divergence → String
  | growth => "DivergenceTolerance"
  | notFinite => "NanOrInf"

def text : Divergence → String
  | growth => "divergence tolerance"
  | notFinite => "NaN or Inf residual"

end Divergence

namespace Verdict

def all : List Verdict :=
  iterating :: Success.all.map converged ++ Divergence.all.map diverged

def code : Verdict → String
  | iterating => "Iterating"
  | converged why => s!"Converged({why.code})"
  | diverged why => s!"Diverged({why.code})"

def isTerminal : Verdict → Bool
  | iterating => false
  | _ => true

def text? : Verdict → Option String
  | iterating => none
  | converged why => some why.text
  | diverged why => some why.text

end Verdict

/-- What a residual test remarks on a verdict that asks to stop. -/
inductive Remark (T : Type) where
  | notFinite (norm : T) (iteration : Nat)
  | belowAbsolute (norm atol : T) (iteration : Nat)
  | belowRelative (norm rtol initial : T) (iteration : Nat)
  | grown (initial norm : T) (iteration : Nat)

/-- Norms and tolerances are shown as doubles with an exponent; a norm that is not finite is shown
as in other messages. -/
def Remark.text {T : Type} [Scalar T] : Remark T → String
  | notFinite norm iteration =>
    s!"residual norm is {Scalar.text norm} at iteration {iteration}, declaring divergence"
  | belowAbsolute norm atol iteration =>
    s!"converged: residual norm {shown norm} below absolute tolerance {shown atol} "
      ++ s!"at iteration {iteration}"
  | belowRelative norm rtol initial iteration =>
    s!"converged: residual norm {shown norm} below {shown rtol} * initial norm "
      ++ s!"{shown initial} at iteration {iteration}"
  | grown initial norm iteration =>
    s!"diverging: initial norm {shown initial}, residual norm {shown norm} "
      ++ s!"at iteration {iteration}"
where
  shown (x : T) : String := Decimal.scientific (Scalar.toFloat x)

/-- Tests of type `C`. A solve asks about the initial residual as iteration 0, then about each
further iteration in order; an answer also returns the test for the next question. `remark?` is
what a test remarks on a question that it is about to answer. -/
class ConvergenceTest (T : outParam Type) (C : Type) where
  evaluate : C → Nat → T → Verdict × C
  remark? : C → Nat → T → Option (Remark T) := fun _ _ _ => none

end TrustRegion
