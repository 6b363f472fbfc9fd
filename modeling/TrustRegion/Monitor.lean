import TrustRegion.Log
import TrustRegion.Scalar.Ieee

/-!
Monitors: observers of the residual norms of a solve and of its end.
-/
namespace TrustRegion

inductive Notice (T : Type) where
  | residual (iteration : Nat) (norm : T)
  | termination (reason : String) (iterations : Nat)

inductive Monitor (T : Type) where
  /-- Keeps every residual norm and the last termination. -/
  | history (residuals : List (Nat × T)) (termination? : Option (String × Nat))
  /-- Logs the residual norms of every so many iterations, and terminations. -/
  | progress (every : Nat) (positive : 0 < every)
  | silent

namespace Monitor

variable {T : Type}

def emptyHistory : Monitor T := history [] none

/-- A progress log; an interval of zero counts as one. -/
def progressEvery (every : Nat) : Monitor T := progress (max every 1) (by omega)

def observe (monitor : Monitor T) (notice : Notice T) : Monitor T :=
  match monitor, notice with
  | history residuals termination?, .residual iteration norm =>
    history (residuals ++ [(iteration, norm)]) termination?
  | history residuals _, .termination reason iterations =>
    history residuals (some (reason, iterations))
  | progress every positive, _ => progress every positive
  | silent, _ => silent

/-- `n` in at least `width` columns, flush right. -/
def column (width n : Nat) : String :=
  let digits := Decimal.numeral n
  String.ofList (List.replicate (width - digits.length) ' ' ++ digits)

/-- The line for a residual norm: the norm has twelve places. -/
def residualLine [Scalar T] (iteration : Nat) (norm : T) : LogLine :=
  ⟨.info, column 4 iteration ++ " residual norm " ++ Decimal.fixed 12 (Scalar.toFloat norm)⟩

def lines [Scalar T] (monitor : Monitor T) (notice : Notice T) : List LogLine :=
  match monitor, notice with
  | progress every _, .residual iteration norm =>
    if iteration % every = 0 then [residualLine iteration norm] else []
  | progress _ _, .termination reason iterations =>
    [⟨.info, s!"solve terminated after {iterations} iterations: {reason}"⟩]
  | _, _ => []

end Monitor

end TrustRegion
