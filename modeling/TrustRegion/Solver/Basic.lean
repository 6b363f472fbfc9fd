import TrustRegion.Solver.Iteration
import TrustRegion.Solver.Transcript

/-!
Solvers: settings, monitors and the report of the last solve, which is all that one solve leaves to
the next.
-/
namespace TrustRegion

/-- What a solver reports of its last solve. -/
structure Report (T : Type) where
  stepNorm : T
  objective : T
  iterations : Nat
  reason? : Option Reason
  residualNorm? : Option T
  history : List T

def Report.blank {T : Type} [Scalar T] : Report T := ⟨0, 0, 0, none, none, []⟩

structure Solver (T : Type) where
  settings : Settings T
  report : Report T
  monitors : List (Monitor T)

structure Solution (T V : Type) where
  step : V
  reason : Reason
  iterations : Nat
  residualNorm? : Option T
  stepNorm : T
  objective : T
  converged : Bool

/-- What a solve leaves behind: its result, the solver and the collaborators as they are then, and
what happened. -/
structure Solved (T V S H P C : Type) where
  result : Except Failure (Solution T V)
  solver : Solver T
  collaborators : Collaborators S H P C
  events : List (Event T)

namespace Solver

variable {T V S H P C : Type} [Scalar T]

def name : String := "Trust-Region CG"

def create (settings : Settings T) : Except Failure (Solver T) :=
  settings.validate.map fun _ => { settings, report := .blank, monitors := [] }

def setRadius (solver : Solver T) (radius : T) : Except Failure (Solver T) :=
  (Settings.checkRadius radius).map fun _ => { solver with settings.radius := radius }

def setDirectionNorm (solver : Solver T) (norm : DirectionNorm) : Solver T :=
  { solver with settings.directionNorm := norm }

def setResidualNorm (solver : Solver T) (norm : ResidualNorm) : Solver T :=
  { solver with settings.residualNorm := norm }

def addMonitor (solver : Solver T) (monitor : Monitor T) : Solver T :=
  { solver with monitors := solver.monitors ++ [monitor] }

/-- The report of a solve with the given figures and events; there is a reason only if the solve
came to its end. -/
def reportOf (settings : Settings T) (figures : Figures T) (events : List (Event T))
    (reason? : Option Reason) : Report T :=
  let norms := (Event.residuals events).map (·.2)
  { stepNorm := figures.stepNorm
    objective := figures.objective
    iterations := figures.iterations
    reason?
    residualNorm? := norms.getLast?
    history := if settings.keepsHistory then norms else [] }

/-- The solver after a solve: a new report, and monitors that were told of every event. -/
def observe (solver : Solver T) (figures : Figures T) (events : List (Event T))
    (reason? : Option Reason) : Solver T :=
  { solver with
    report := reportOf solver.settings figures events reason?
    monitors := solver.monitors.map fun monitor =>
      (events.filterMap Event.notice?).foldl Monitor.observe monitor }

/-- Approximately minimises `-rhs·s + ½ s·H s` over the steps `s` within the radius. It takes at
most `maxIterations` iterations and at most as many as `rhs` has entries, but at least one. -/
def solve [VectorSpace T V S] [ActsOn V H] [ActsOn V P] [ConvergenceTest T C] (solver : Solver T)
    (collaborators : Collaborators S H P C) (rhs : V) (maxIterations : Nat) :
    Solved T V S H P C :=
  match solver.settings.validate with
  | .error failure => { result := .error failure, solver, collaborators, events := [] }
  | .ok () =>
    match iterate solver.settings rhs maxIterations
        { collaborators with figures := .zero, latest := [] } with
    | .error failure run =>
      let events := run.latest.reverse
      { result := .error failure
        solver := solver.observe run.figures events none
        collaborators := run.toCollaborators
        events }
    | .ok stop run =>
      let run := run.log (.terminated stop.reason run.figures.iterations)
      let events := run.latest.reverse
      let after := solver.observe run.figures events (some stop.reason)
      { result := .ok
          { step := stop.step
            reason := stop.reason
            iterations := run.figures.iterations
            residualNorm? := after.report.residualNorm?
            stepNorm := run.figures.stepNorm
            objective := run.figures.objective
            converged := stop.reason.isSuccess }
        solver := after
        collaborators := run.toCollaborators
        events }

end Solver

end TrustRegion
