import TrustRegion.Monitor
import TrustRegion.Solver.Event

/-!
The log of a solve, written from its events.
-/
namespace TrustRegion

variable {T : Type} [Scalar T]

/-- The line of a note in a solve with the given radius. -/
def Note.line (radius : T) : Note T → LogLine
  | badPreconditioner rz => debug s!"bad preconditioner: rz={shown rz}"
  | indefinitePreconditioner rz => debug s!"indefinite preconditioner: rz={shown rz}"
  | initialResidual norm verdict =>
    trace s!"initial residual norm {shown norm} ({verdict.code})"
  | badOperator curvature => debug s!"bad operator: kappa={shown curvature}"
  | negativeCurvature curvature => debug s!"negative curvature: kappa={shown curvature}"
  | pass iteration alpha curvature nextSq =>
    trace (s!"its={iteration} alpha={shown alpha} kappa={shown curvature} "
      ++ s!"|d+|^2={shown nextSq}")
  | constrainedStep => debug s!"constrained step: radius={shown radius}"
  | turnedIndefinite rz => debug s!"cg indefinite preconditioner: rz={shown rz}"
  | truncatedStep norm => debug s!"truncated step: rnorm={shown norm}, radius={shown radius}"
  | testDiverged why => debug s!"convergence test diverged: {why.text}"
  | recurrence iteration rz beta => trace s!"its={iteration} rz={shown rz} beta={shown beta}"
  | breakdown beta => debug s!"breakdown: beta={shown beta}"
  | iterationLimit iteration => debug s!"iterlim: its={iteration}"
where
  shown (x : T) : String := Scalar.text x
  debug (text : String) : LogLine := ⟨.debug, "trust-region CG: " ++ text⟩
  trace (text : String) : LogLine := ⟨.trace, "trust-region CG: " ++ text⟩

namespace Event

omit [Scalar T] in
def notice? : Event T → Option (Notice T)
  | residual iteration norm => some (.residual iteration norm)
  | terminated reason iterations => some (.termination reason.name iterations)
  | _ => none

/-- The lines of an event: those of the monitors in their order, those of the convergence test, and
those of the solve. -/
def lines (radius : T) (monitors : List (Monitor T)) (event : Event T) : List LogLine :=
  match event with
  | evaluated _ _ _ (some remark) => [⟨.debug, remark.text⟩]
  | noted note => [note.line radius]
  | _ =>
    match event.notice? with
    | some notice => monitors.flatMap (·.lines notice)
    | none => []

def transcript (radius : T) (monitors : List (Monitor T)) (events : List (Event T)) :
    List LogLine :=
  events.flatMap (lines radius monitors)

end Event

end TrustRegion
