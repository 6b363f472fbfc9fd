import TrustRegion.Convergence.Basic
import TrustRegion.Failure

/-!
The residual test: a norm is compared with the initial one and with fixed tolerances.
-/
namespace TrustRegion

structure Tolerances (T : Type) where
  rtol : T
  atol : T
  dtol : T

namespace Tolerances

variable {T : Type}

def standard [Precision T] : Tolerances T :=
  ⟨Precision.relativeTolerance, Precision.absoluteTolerance, Precision.divergenceTolerance⟩

def named (t : Tolerances T) : List (String × T) :=
  [("rtol", t.rtol), ("atol", t.atol), ("dtol", t.dtol)]

/-- The first tolerance that is NaN or negative is refused. -/
def validate [Scalar T] (t : Tolerances T) : Except Failure Unit :=
  match t.named.find? fun (_, value) => Scalar.isNaN value || decide (value < 0) with
  | some (name, value) =>
    .error (.invalidArgument name (Scalar.text value) "tolerance must be a non-negative number")
  | none => .ok ()

end Tolerances

/-- The state of the residual test. Question 0 fixes the initial norm and the target, the larger of
`rtol` times that norm and `atol`. -/
structure ResidualTest (T : Type) where
  tolerances : Tolerances T
  initial : T
  target : T

namespace ResidualTest

variable {T : Type} [Scalar T]

def fresh (t : Tolerances T) : ResidualTest T := ⟨t, 0, t.atol⟩

def create (t : Tolerances T) : Except Failure (ResidualTest T) := t.validate.map fun _ => fresh t

/-- The answer to a question after the initial one. A norm at the target has converged, by the
absolute tolerance only if it is strictly below that. -/
def judge (test : ResidualTest T) (norm : T) : Verdict :=
  if !Scalar.isFinite norm then .diverged .notFinite
  else if norm ≤ test.target then
    if norm < test.tolerances.atol then .converged .absoluteTolerance
    else .converged .relativeTolerance
  else if norm ≥ test.tolerances.dtol * test.initial then .diverged .growth
  else .iterating

/-- The initial residual never stops a solve. -/
def evaluate (test : ResidualTest T) (iteration : Nat) (norm : T) : Verdict × ResidualTest T :=
  if iteration = 0 then
    let target := Scalar.larger (test.tolerances.rtol * norm) test.tolerances.atol
    (.iterating, { test with initial := norm, target })
  else (test.judge norm, test)

def remark? (test : ResidualTest T) (iteration : Nat) (norm : T) : Option (Remark T) :=
  if iteration = 0 then none
  else
    match test.judge norm with
    | .iterating => none
    | .converged .absoluteTolerance => some (.belowAbsolute norm test.tolerances.atol iteration)
    | .converged _ => some (.belowRelative norm test.tolerances.rtol test.initial iteration)
    | .diverged .notFinite => some (.notFinite norm iteration)
    | .diverged .growth => some (.grown test.initial norm iteration)

instance : ConvergenceTest T (ResidualTest T) where
  evaluate := evaluate
  remark? := remark?

end ResidualTest

end TrustRegion
