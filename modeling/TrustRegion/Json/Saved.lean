import TrustRegion.Json.Value
import TrustRegion.Space.Basic
import TrustRegion.Solver.Settings
import TrustRegion.Solver.Reason
import TrustRegion.Convergence.Residual

/-!
The saved forms of settings, tolerances, norms, verdicts and reasons. Nothing is validated on the
way: a form that can be read may still hold settings that a solver refuses.

Numbers are left to a reader `number` from the numbers of the JSON value; a number that is not
finite is written as `null`, which is not read back.
-/
namespace TrustRegion

open Json (Value)

variable {T ν : Type}

def Json.Value.name (s : String) : Value ν := .string (some s)

def Json.Value.tagged (s : String) (payload : Value ν) : Value ν := .object [(some s, payload)]

/-- A finite number, or `null`. -/
def Json.Value.ofScalar [Scalar T] (x : T) : Value T :=
  if Scalar.isFinite x then .number x else .null

namespace DirectionNorm

def saved (n : DirectionNorm) : Value ν := .name n.code

def ofSaved? (v : Value ν) : Option DirectionNorm := v.choice? all code

end DirectionNorm

namespace ResidualNorm

def saved (n : ResidualNorm) : Value ν := .name n.code

def ofSaved? (v : Value ν) : Option ResidualNorm := v.choice? all code

end ResidualNorm

namespace NormKind

def saved (k : NormKind) : Value ν := .name k.code

def ofSaved? (v : Value ν) : Option NormKind := v.choice? all code

end NormKind

namespace Success

def saved (why : Success) : Value ν := .name why.code

def ofSaved? (v : Value ν) : Option Success := v.choice? all code

end Success

namespace Divergence

def saved (why : Divergence) : Value ν := .name why.code

def ofSaved? (v : Value ν) : Option Divergence := v.choice? all code

end Divergence

namespace Verdict

def saved : Verdict → Value ν
  | iterating => .name "Iterating"
  | converged why => .tagged "Converged" why.saved
  | diverged why => .tagged "Diverged" why.saved

def ofSaved? (v : Value ν) : Option Verdict :=
  match v.variant? with
  | some ("Iterating", .null) => some iterating
  | some ("Converged", payload) => (Success.ofSaved? payload).map converged
  | some ("Diverged", payload) => (Divergence.ofSaved? payload).map diverged
  | _ => none

end Verdict

namespace Reason

def plain : List Reason :=
  [negativeCurvature, constrainedStep, badPreconditioner, indefinitePreconditioner, badOperator,
    breakdown, iterationLimit]

def saved : Reason → Value ν
  | converged why => .tagged "Converged" why.saved
  | diverged why => .tagged "Diverged" why.saved
  | reason => .name reason.code

def ofSaved? (v : Value ν) : Option Reason :=
  match v.variant? with
  | some ("Converged", payload) => (Success.ofSaved? payload).map converged
  | some ("Diverged", payload) => (Divergence.ofSaved? payload).map diverged
  | _ => v.choice? plain code

end Reason

namespace Settings

def fieldNames : List String :=
  ["radius", "direction_norm", "norm_type", "record_residual_history"]

def saved [Scalar T] (s : Settings T) : Value T :=
  .object
    [(some "radius", .ofScalar s.radius), (some "direction_norm", s.directionNorm.saved),
      (some "norm_type", s.residualNorm.saved),
      (some "record_residual_history", .bool s.keepsHistory)]

def ofSaved? (number : ν → Option T) (v : Value ν) : Option (Settings T) := do
  match ← v.record? fieldNames with
  | [radius, directionNorm, residualNorm, keepsHistory] =>
    return {
      radius := ← number (← radius.number?)
      directionNorm := ← DirectionNorm.ofSaved? directionNorm
      residualNorm := ← ResidualNorm.ofSaved? residualNorm
      keepsHistory := ← keepsHistory.bool? }
  | _ => none

end Settings

namespace Tolerances

def fieldNames : List String := ["rtol", "atol", "dtol"]

def saved [Scalar T] (t : Tolerances T) : Value T :=
  .object
    [(some "rtol", .ofScalar t.rtol), (some "atol", .ofScalar t.atol),
      (some "dtol", .ofScalar t.dtol)]

def ofSaved? (number : ν → Option T) (v : Value ν) : Option (Tolerances T) := do
  match ← v.record? fieldNames with
  | [rtol, atol, dtol] =>
    return {
      rtol := ← number (← rtol.number?)
      atol := ← number (← atol.number?)
      dtol := ← number (← dtol.number?) }
  | _ => none

end Tolerances

end TrustRegion
