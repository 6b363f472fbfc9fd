import TrustRegion.Proofs.Course
import TrustRegion.Proofs.Reachable
import TrustRegion.Convergence.Criterion
import TrustRegion.Operator.Rule

/-! The observers of a solve: its monitors, its log, its history and its result all show the
questions to the convergence test, each of them once and in order. -/
namespace TrustRegion

variable {T V S H P C : Type}

namespace Monitor

variable [Scalar T]

/-- The lines that a monitor writes about events. -/
def written (monitor : Monitor T) (events : List (Event T)) : List LogLine :=
  (events.filterMap Event.notice?).flatMap monitor.lines

end Monitor

namespace Event

variable [Scalar T]

end Event

/-- The iteration numbers and the residual norms that a solve has asked the convergence test
about. -/
def Solved.asked (solved : Solved T V S H P C) : List (Nat × T) :=
  (Event.evaluations solved.events).map fun (i, x, _) => (i, x)

def Solved.notices (solved : Solved T V S H P C) : List (Notice T) :=
  solved.events.filterMap Event.notice?

def Solved.ending? (solved : Solved T V S H P C) : Option (String × Nat) :=
  match solved.result with
  | .ok solution => some (solution.reason.name, solution.iterations)
  | .error _ => none

/-- The observers of a solve that the solver `before` has made agree on the questions asked. -/
structure Solved.Agrees [Scalar T] (solved : Solved T V S H P C) (before : Solver T) : Prop where
  /-- The monitors are told of each question and then, if the solve succeeds, of its end. -/
  notices : solved.notices = solved.asked.map (fun (i, x) => .residual i x) ++
    solved.ending?.toList.map fun (reason, i) => .termination reason i
  monitors : solved.solver.monitors =
    before.monitors.map fun monitor => solved.notices.foldl Monitor.observe monitor
  histories (j : Nat) (residuals : List (Nat × T)) (termination? : Option (String × Nat))
    (h : before.monitors[j]? = some (.history residuals termination?)) :
      solved.solver.monitors[j]? =
        some (.history (residuals ++ solved.asked) (solved.ending?.or termination?))
  /-- A progress log shows the questions at its interval, and then the end. -/
  progress (k : Nat) : (Monitor.progressEvery k).written solved.events =
    ((solved.asked.filter fun (i, _) => i % max k 1 = 0).map fun (i, x) =>
      Monitor.residualLine i x) ++
      solved.ending?.toList.flatMap fun (reason, i) =>
        (Monitor.progressEvery k).lines (.termination reason i : Notice T)
  /-- Beside its details the log shows the lines of the monitors, notice by notice. -/
  log : LogLine.upTo .info
      (Event.transcript before.settings.radius before.monitors solved.events) =
    solved.notices.flatMap fun notice => before.monitors.flatMap (·.lines notice)
  history : solved.solver.report.history =
    if before.settings.keepsHistory then solved.asked.map (·.2) else []
  solution (solution : Solution T V) (h : solved.result = .ok solution) :
    solution.residualNorm? = solved.asked.getLast?.map (·.2) ∧
      solved.solver.report.stepNorm = solution.stepNorm ∧
      solved.solver.report.objective = solution.objective ∧
      solved.solver.report.iterations = solution.iterations ∧
      solved.solver.report.reason? = some solution.reason ∧
      solution.converged = solution.reason.isSuccess
  failure (failure : Failure) (h : solved.result = .error failure) :
    solved.solver.report.reason? = none

theorem Solved.residuals_closing (solved : Solved T V S H P C) :
    Event.residuals solved.closing = [] ∧ Event.evaluations solved.closing = [] := by
  cases h : solved.result <;> simp [closing, h, Event.residuals, Event.evaluations]

namespace Solver

variable [Scalar T] [VectorSpace T V S] [ActsOn V H] [ActsOn V P] [ConvergenceTest T C]
  {solver : Solver T} {cs : Collaborators S H P C} {rhs : V} {m : Nat}

section Solve

variable (cs rhs m)

theorem residuals_solve (valid : solver.settings.validate = .ok ()) :
    Event.residuals (solver.solve cs rhs m).events = (solver.solve cs rhs m).asked := by
  obtain ⟨failure?, latest, course, hevents⟩ := exists_course cs rhs m valid
  obtain ⟨hresiduals, hevaluations⟩ := (solver.solve cs rhs m).residuals_closing
  rw [Solved.asked, hevents, Event.residuals_append, Event.evaluations_append, hresiduals,
    hevaluations, List.append_nil, List.append_nil, Event.residuals_reverse,
    Event.evaluations_reverse, course.residuals_eq, List.map_reverse]

theorem solver_solve (valid : solver.settings.validate = .ok ()) : ∃ figures,
    (solver.solve cs rhs m).solver =
      solver.observe figures (solver.solve cs rhs m).events
        (match (solver.solve cs rhs m).result with
          | .ok solution => some solution.reason
          | .error _ => none) := by
  cases h : iterate solver.settings rhs m cs.begin with
  | ok stop run => exact ⟨run.figures, by rw [solve_of_ok valid h]⟩
  | error failure run => exact ⟨run.figures, by rw [solve_of_error valid h]⟩

end Solve

theorem monitors_solve (valid : solver.settings.validate = .ok ()) :
    (solver.solve cs rhs m).solver.monitors =
      solver.monitors.map fun monitor =>
        (solver.solve cs rhs m).notices.foldl Monitor.observe monitor := by
  obtain ⟨figures, hsolver⟩ := solver_solve cs rhs m valid
  rw [hsolver]
  rfl

theorem report_of_ok (valid : solver.settings.validate = .ok ()) {solution : Solution T V}
    (h : (solver.solve cs rhs m).result = .ok solution) :
    solution.residualNorm? = (solver.solve cs rhs m).asked.getLast?.map (·.2) ∧
      (solver.solve cs rhs m).solver.report.stepNorm = solution.stepNorm ∧
      (solver.solve cs rhs m).solver.report.objective = solution.objective ∧
      (solver.solve cs rhs m).solver.report.iterations = solution.iterations ∧
      (solver.solve cs rhs m).solver.report.reason? = some solution.reason ∧
      solution.converged = solution.reason.isSuccess := by
  have hresiduals := residuals_solve cs rhs m valid
  cases hi : iterate solver.settings rhs m cs.begin with
  | error failure run =>
    rw [solve_of_error valid hi] at h
    cases h
  | ok stop run =>
    have hsolve := solve_of_ok valid hi
    rw [hsolve] at h hresiduals
    cases h
    rw [hsolve]
    refine ⟨?_, rfl, rfl, rfl, rfl, rfl⟩
    rw [← hresiduals, ← List.getLast?_map]
    rfl

/-- A system of two equations, with a preconditioner that leaves vectors as they are and a test
that never asks to stop. -/
def twoEquations : Collaborators (Euclidean Float) (Rule Float) (Rule Float) (Criterion Float) :=
  ⟨⟨⟩, .scales [2, 3], .identity, .never⟩

end Solver

end TrustRegion
