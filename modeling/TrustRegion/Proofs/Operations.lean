import TrustRegion.Proofs.Failures

/-! Operations on a solver in any order: what holds of every solver that they lead to, and what
refused operations and solves leave alone. -/
namespace TrustRegion

/-- The public operations on a solver. Each solve has collaborators of its own, of any kind. -/
inductive Operation (T : Type) [Scalar T] : Type 1 where
  | renew (settings : Settings T)
  | setRadius (radius : T)
  | setDirectionNorm (norm : DirectionNorm)
  | setResidualNorm (norm : ResidualNorm)
  | addMonitor (monitor : Monitor T)
  | solve {V S H P C : Type} [VectorSpace T V S] [ActsOn V H] [ActsOn V P] [ConvergenceTest T C]
      (cs : Collaborators S H P C) (rhs : V) (maxIterations : Nat)

/-- The failure of an operation, if it fails, and the solver after it. -/
structure Performed (T : Type) where
  failure? : Option Failure
  solver : Solver T

namespace Settings

variable {T : Type} [Scalar T]

theorem checkRadius_eq_ok {radius : T} :
    checkRadius radius = .ok () ↔ Scalar.isNaN radius = false ∧ ¬ radius < 0 := by
  by_cases ordered : Scalar.isNaN radius = true <;> by_cases neg : radius < 0 <;>
    simp [checkRadius, ordered, neg]

theorem eq_of_checkRadius_error {radius : T} {failure : Failure}
    (h : checkRadius radius = .error failure) :
    failure = .invalidArgument "radius" (Scalar.text radius)
      "trust-region radius must be non-negative" := by
  unfold checkRadius at h
  split at h
  · cases h
    rfl
  · cases h

end Settings

variable {T : Type} [Scalar T]

def Operation.radius? : Operation T → Option T
  | .renew settings => some settings.radius
  | .setRadius radius => some radius
  | _ => none

namespace Solver

/-- A change of the solver that is made only if it is not refused. -/
def change (solver : Solver T) : Except Failure (Solver T) → Performed T
  | .ok changed => ⟨none, changed⟩
  | .error failure => ⟨some failure, solver⟩

def perform (solver : Solver T) : Operation T → Performed T
  | .renew settings => solver.change (create settings)
  | .setRadius radius => solver.change (solver.setRadius radius)
  | .setDirectionNorm norm => ⟨none, solver.setDirectionNorm norm⟩
  | .setResidualNorm norm => ⟨none, solver.setResidualNorm norm⟩
  | .addMonitor monitor => ⟨none, solver.addMonitor monitor⟩
  | @Operation.solve _ _ _ _ _ _ _ _ _ _ _ cs rhs m =>
    let solved := solver.solve cs rhs m
    ⟨match solved.result with
      | .ok _ => none
      | .error failure => some failure, solved.solver⟩

def after (solver : Solver T) (ops : List (Operation T)) : Solver T :=
  ops.foldl (fun solver op => (solver.perform op).solver) solver

variable {solver : Solver T} {op : Operation T}

theorem perform_radius (solver : Solver T) {radius : T} (h : op.radius? = some radius) :
    (Settings.checkRadius radius = .ok () ∧ (solver.perform op).failure? = none ∧
        (solver.perform op).solver.settings.radius = radius) ∨
      ∃ failure, Settings.checkRadius radius = .error failure ∧
        solver.perform op = ⟨some failure, solver⟩ := by
  cases op with
  | renew settings =>
    cases h
    cases hr : Settings.checkRadius settings.radius with
    | ok u => simp [perform, change, create, Settings.validate, hr, Except.map]
    | error failure => simp [perform, change, create, Settings.validate, hr, Except.map]
  | setRadius radius =>
    cases h
    cases hr : Settings.checkRadius radius with
    | ok u => simp [perform, change, setRadius, hr, Except.map]
    | error failure => simp [perform, change, setRadius, hr, Except.map]
  | setDirectionNorm | setResidualNorm | addMonitor | solve => cases h

theorem Reachable.perform (reached : solver.Reachable) (op : Operation T) :
    (solver.perform op).solver.Reachable := by
  cases op with
  | renew settings =>
    cases h : Solver.create settings with
    | ok created => simpa only [Solver.perform, change, h] using Reachable.create h
    | error failure => simpa only [Solver.perform, change, h] using reached
  | setRadius radius =>
    cases h : solver.setRadius radius with
    | ok changed => simpa only [Solver.perform, change, h] using reached.setRadius h
    | error failure => simpa only [Solver.perform, change, h] using reached
  | setDirectionNorm norm => exact reached.setDirectionNorm norm
  | setResidualNorm norm => exact reached.setResidualNorm norm
  | addMonitor monitor => exact reached.addMonitor monitor
  | solve cs rhs m => exact reached.solve cs rhs m

theorem Reachable.after (reached : solver.Reachable) (ops : List (Operation T)) :
    (solver.after ops).Reachable := by
  induction ops generalizing solver with
  | nil => exact reached
  | cons op ops ih => exact ih (reached.perform op)

/-- Without recording there is never a history, not even of a solve that has failed. -/
theorem Reachable.unrecorded (reached : solver.Reachable)
    (h : solver.settings.keepsHistory = false) : solver.report.history = [] := by
  induction reached with
  | @create settings solver created =>
    unfold Solver.create at created
    cases hv : settings.validate with
    | error failure => simp [hv, Except.map] at created
    | ok u =>
      rw [hv] at created
      cases created
      rfl
  | @setRadius solver solver' radius _ changed ih =>
    unfold Solver.setRadius at changed
    cases hr : Settings.checkRadius radius with
    | error failure => simp [hr, Except.map] at changed
    | ok u =>
      rw [hr] at changed
      cases changed
      exact ih h
  | setDirectionNorm _ _ ih => exact ih h
  | setResidualNorm _ _ ih => exact ih h
  | addMonitor _ _ ih => exact ih h
  | @solve V S H P C _ _ _ _ solver reached cs rhs m ih =>
    rw [solve_settings] at h
    obtain ⟨figures, hsolver⟩ := solver_solve cs rhs m reached.valid
    rw [hsolver]
    simp [observe, reportOf, h]

/-- What holds of a solver at any time, and of the next operation on it. -/
structure Guarded (solver : Solver T) : Prop where
  ordered : Scalar.isNaN solver.settings.radius = false
  nonneg : ¬ solver.settings.radius < 0
  unrecorded (h : solver.settings.keepsHistory = false) : solver.report.history = []
  refused_iff (op : Operation T) (radius : T) (h : op.radius? = some radius) :
    (solver.perform op).failure? ≠ none ↔ Scalar.isNaN radius = true ∨ radius < 0
  /-- A refusal names the radius and leaves all of the solver as it is. -/
  refused (op : Operation T) (radius : T) (failure : Failure) (h : op.radius? = some radius)
    (fails : (solver.perform op).failure? = some failure) :
      failure = .invalidArgument "radius" (Scalar.text radius)
          "trust-region radius must be non-negative" ∧
        (solver.perform op).solver = solver
  accepted (op : Operation T) (radius : T) (h : op.radius? = some radius)
    (succeeds : (solver.perform op).failure? = none) :
      (solver.perform op).solver.settings.radius = radius
  valid : solver.settings.validate = .ok ()
  solve_settings {V S H P C : Type} [VectorSpace T V S] [ActsOn V H] [ActsOn V P]
    [ConvergenceTest T C] (cs : Collaborators S H P C) (rhs : V) (m : Nat) :
      (solver.solve cs rhs m).solver.settings = solver.settings
  solve_monitors {V S H P C : Type} [VectorSpace T V S] [ActsOn V H] [ActsOn V P]
    [ConvergenceTest T C] (cs : Collaborators S H P C) (rhs : V) (m : Nat) :
      (solver.solve cs rhs m).solver.monitors.length = solver.monitors.length
  /-- An argument that a solve fails for is one that a collaborator has refused. -/
  solve_refuses {V S H P C : Type} [VectorSpace T V S] [ActsOn V H] [ActsOn V P]
    [ConvergenceTest T C] (cs : Collaborators S H P C) (rhs : V) (m : Nat)
    (parameter value reason : String)
    (h : (solver.solve cs rhs m).result = .error (.invalidArgument parameter value reason)) :
      (solver.solve cs rhs m).Breaks (.invalidArgument parameter value reason)

theorem Reachable.guarded (reached : solver.Reachable) : solver.Guarded := by
  have admissible := Settings.checkRadius_eq_ok.mp reached.valid
  constructor
  case ordered => exact admissible.1
  case nonneg => exact admissible.2
  case unrecorded => exact reached.unrecorded
  case refused_iff =>
    intro op radius h
    obtain ⟨passes, succeeds, -⟩ | ⟨failure, fails, heq⟩ := perform_radius solver h
    · obtain ⟨ordered, nonneg⟩ := Settings.checkRadius_eq_ok.mp passes
      simp [succeeds, ordered, nonneg]
    · have hnot : ¬ (Scalar.isNaN radius = false ∧ ¬ radius < 0) := by
        rw [← Settings.checkRadius_eq_ok, fails]
        exact nofun
      simp only [heq, ne_eq, reduceCtorEq, not_false_eq_true, true_iff]
      by_cases ordered : Scalar.isNaN radius = true
      · exact .inl ordered
      · exact .inr (Classical.not_not.mp fun nonneg => hnot ⟨by simpa using ordered, nonneg⟩)
  case refused =>
    intro op radius failure h fails
    obtain ⟨-, succeeds, -⟩ | ⟨failure', hcheck, heq⟩ := perform_radius solver h
    · rw [succeeds] at fails
      cases fails
    · rw [heq] at fails ⊢
      cases fails
      exact ⟨Settings.eq_of_checkRadius_error hcheck, rfl⟩
  case accepted =>
    intro op radius h succeeds
    obtain ⟨-, -, hradius⟩ | ⟨failure', -, heq⟩ := perform_radius solver h
    · exact hradius
    · rw [heq] at succeeds
      cases succeeds
  case valid => exact reached.valid
  case solve_settings => exact Solver.solve_settings solver
  case solve_monitors =>
    intro V S H P C _ _ _ _ cs rhs m
    rw [monitors_solve reached.valid, List.length_map]
  case solve_refuses =>
    intro V S H P C _ _ _ _ cs rhs m parameter value reason h
    obtain breaks | ⟨rr, run, -, -, hne⟩ := breaks_or_refuse reached.valid h
    · exact breaks
    · cases hne

/-- Whatever has been done to a solver since it was created, its radius is neither NaN nor negative,
and refused operations and solves leave its settings alone. -/
theorem guarded_after {settings : Settings T} (created : create settings = .ok solver)
    (ops : List (Operation T)) : (solver.after ops).Guarded :=
  ((Reachable.create created).after ops).guarded

/-- Operations among which there are refused ones, an infinite radius and a solve that fails. -/
def mishaps : List (Operation Float) :=
  [.addMonitor .emptyHistory, .setRadius (0 / 0), .setRadius (1 / 0), .renew ⟨-1, .preconditioned,
    .natural, true⟩, .solve brokenOperator [3, 4] 5, .setRadius 2, .solve twoEquations [3, 4] 5]

theorem guarded_after_mishaps : ∃ solver : Solver Float, create .standard = .ok solver ∧
    (solver.after mishaps).Guarded ∧ (solver.after mishaps).monitors.length = 1 ∧
      (solver.after mishaps).report.reason? = some .constrainedStep := by
  have created : create (.standard : Settings Float) = .ok ⟨.standard, .blank, []⟩ := rfl
  refine ⟨_, created, guarded_after created mishaps, ?_⟩
  decide +kernel

end Solver

end TrustRegion
