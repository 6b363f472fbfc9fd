import TrustRegion.Convergence.Residual

/-!
The tests to choose from: by the residual, never, by a list of verdicts, or from an iteration on.
-/
namespace TrustRegion

inductive Criterion (T : Type) where
  | residual (test : ResidualTest T)
  | never
  /-- Answers the verdicts one by one and then the last one for ever. -/
  | listed (verdict : Verdict) (rest : List Verdict)
  /-- Answers the verdict from an iteration number on. -/
  | fromIteration (iteration : Nat) (verdict : Verdict)

namespace Criterion

variable {T : Type} [Scalar T]

def evaluate : Criterion T → Nat → T → Verdict × Criterion T
  | residual test, iteration, norm =>
    let (verdict, test) := test.evaluate iteration norm
    (verdict, residual test)
  | never, _, _ => (.iterating, never)
  | listed verdict [], _, _ => (verdict, listed verdict [])
  | listed verdict (next :: rest), _, _ => (verdict, listed next rest)
  | fromIteration first verdict, iteration, _ =>
    (if iteration < first then .iterating else verdict, fromIteration first verdict)

def remark? : Criterion T → Nat → T → Option (Remark T)
  | residual test, iteration, norm => test.remark? iteration norm
  | _, _, _ => none

instance : ConvergenceTest T (Criterion T) where
  evaluate := evaluate
  remark? := remark?

def tolerances? : Criterion T → Option (Tolerances T)
  | residual test => some test.tolerances
  | _ => none

def initial? : Criterion T → Option T
  | residual test => some test.initial
  | _ => none

end Criterion

end TrustRegion
