import TrustRegion.Solver.Basic

/-! The solvers that can come about: one is created and then changed by its public operations. -/
namespace TrustRegion

namespace Solver

variable {T : Type} [Scalar T]

/-- Solvers that the public operations lead to, whatever the collaborators of their solves. -/
inductive Reachable : Solver T → Prop where
  | create {settings : Settings T} {solver : Solver T} (h : create settings = .ok solver) :
      Reachable solver
  | setRadius {solver solver' : Solver T} {radius : T} (reached : Reachable solver)
      (h : solver.setRadius radius = .ok solver') : Reachable solver'
  | setDirectionNorm {solver : Solver T} (reached : Reachable solver) (norm : DirectionNorm) :
      Reachable (solver.setDirectionNorm norm)
  | setResidualNorm {solver : Solver T} (reached : Reachable solver) (norm : ResidualNorm) :
      Reachable (solver.setResidualNorm norm)
  | addMonitor {solver : Solver T} (reached : Reachable solver) (monitor : Monitor T) :
      Reachable (solver.addMonitor monitor)
  | solve {V S H P C : Type} [VectorSpace T V S] [ActsOn V H] [ActsOn V P] [ConvergenceTest T C]
      {solver : Solver T} (reached : Reachable solver) (cs : Collaborators S H P C) (rhs : V)
      (m : Nat) : Reachable (solver.solve cs rhs m).solver

theorem solve_settings {V S H P C : Type} [VectorSpace T V S] [ActsOn V H] [ActsOn V P]
    [ConvergenceTest T C] (solver : Solver T) (cs : Collaborators S H P C) (rhs : V) (m : Nat) :
    (solver.solve cs rhs m).solver.settings = solver.settings := by
  unfold solve
  split
  · rfl
  · split <;> rfl

theorem valid_of_create {settings : Settings T} {solver : Solver T}
    (h : create settings = .ok solver) : solver.settings.validate = .ok () := by
  cases hv : settings.validate with
  | error failure => simp [create, hv, Except.map] at h
  | ok u =>
    simp only [create, hv, Except.map] at h
    cases h
    exact hv

theorem valid_of_setRadius {solver solver' : Solver T} {radius : T}
    (h : solver.setRadius radius = .ok solver') : solver'.settings.validate = .ok () := by
  cases hr : Settings.checkRadius radius with
  | error failure => simp [Solver.setRadius, hr, Except.map] at h
  | ok u =>
    simp only [Solver.setRadius, hr, Except.map] at h
    cases h
    exact hr

/-- A solve by a solver that can come about never finds its settings inadmissible. -/
theorem Reachable.valid {solver : Solver T} (reached : solver.Reachable) :
    solver.settings.validate = .ok () := by
  induction reached with
  | create h => exact valid_of_create h
  | setRadius _ h => exact valid_of_setRadius h
  | setDirectionNorm _ _ ih => exact ih
  | setResidualNorm _ _ ih => exact ih
  | addMonitor _ _ ih => exact ih
  | solve _ cs rhs m ih => rw [solve_settings]; exact ih

/-- A solver without a radius that keeps its history and has a history and a progress log to
watch it. -/
def watched : Solver Float :=
  { settings := { Settings.standard with keepsHistory := true }
    report := .blank
    monitors := [.emptyHistory, .progressEvery 2] }

theorem reachable_watched : watched.Reachable := by
  have created : create { Settings.standard with keepsHistory := true } =
      .ok { watched with monitors := [] } := rfl
  exact ((Reachable.create created).addMonitor .emptyHistory).addMonitor (.progressEvery 2)

end Solver

end TrustRegion
