import TrustRegion.Proofs.Ieee.Number
import TrustRegion.Proofs.Observers
import TrustRegion.Proofs.Recorded

/-! Right-hand sides that are not finite: one infinite entry or NaN spoils their product with
themselves, wherever it stands, and the solve refuses them before any collaborator is called. -/
namespace TrustRegion

open Scalar (isFinite)

variable {T H P C : Type} [Scalar T]

section Euclidean

variable {rhs : List T} {run : Run T (Euclidean T) H P C}

theorem firstProduct_eq : firstProduct rhs run = .ok (Dense.dot rhs rhs)
    ((run.log (.called (.space .copy) none)).log (.called (.space .dot) none)) := by
  have hzeros : rhs.length = (Dense.zeros rhs.length : List T).length :=
    (Dense.length_zeros _).symm
  have hzero : (RunM.zerosLike rhs : RunM T (Euclidean T) H P C (List T)) run =
      .ok (Dense.zeros rhs.length) run := rfl
  rw [firstProduct, RunM.bind_of_ok hzero, RunM.bind_of_ok (RunM.copy_of_length hzeros),
    RunM.dot_of_length rfl]

end Euclidean

namespace Solver

variable [ActsOn (List T) H] [ActsOn (List T) P] [ConvergenceTest T C] {solver : Solver T}

theorem observe_of_unnoticed {events : List (Event T)} (asked : Event.residuals events = [])
    (unnoticed : events.filterMap Event.notice? = []) :
    solver.observe .zero events none = { solver with report := .blank } := by
  have history : (if solver.settings.keepsHistory then ([] : List T) else []) = [] := ite_self _
  simp only [observe, reportOf, asked, unnoticed, List.map_nil, List.getLast?_nil,
    List.foldl_nil, List.map_id', Figures.zero, Report.blank, history]

/-- A right-hand side whose product with itself is not finite is refused, in every arithmetic. -/
theorem solve_of_infinite_dot (valid : solver.settings.validate = .ok ())
    (cs : Collaborators (Euclidean T) H P C) {rhs : List T} (m : Nat)
    (infinite : isFinite (Dense.dot rhs rhs) = false) :
    solver.solve cs rhs m =
      { result := .error (.nonFiniteRightHandSide (Scalar.toFloat (Dense.dot rhs rhs)))
        solver := { solver with report := .blank }
        collaborators := cs
        events := [.called (.space .copy) none, .called (.space .dot) none] } := by
  rw [solve_of_error valid (iterate_of_infinite firstProduct_eq infinite)]
  exact congrArg (Solved.mk _ · _ _) (observe_of_unnoticed rfl rfl)

/-- A floating-point solve refuses every right-hand side with an infinite entry or a NaN. All that
it has done by then is to copy it and to multiply it with itself: operator, preconditioner, test and
monitors are as before, and nothing is left of earlier solves. -/
theorem solve_refuses_infinite [Ieee T] (reached : solver.Reachable)
    (cs : Collaborators (Euclidean T) H P C) (rhs : List T) (m : Nat)
    (infinite : ∃ a ∈ rhs, isFinite a = false) :
    isFinite (Dense.dot rhs rhs) = false ∧
      solver.solve cs rhs m =
        { result := .error (.nonFiniteRightHandSide (Scalar.toFloat (Dense.dot rhs rhs)))
          solver := { solver with report := ⟨0, 0, 0, none, none, []⟩ }
          collaborators := cs
          events := [.called (.space .copy) none, .called (.space .dot) none] } := by
  have spoiled : isFinite (Dense.dot rhs rhs) = false := by
    obtain ⟨a, hmem, ha⟩ := infinite
    refine Bool.eq_false_iff.mpr fun finite => ?_
    have all : Dense.IsFinite rhs := (Dense.isFinite_of_dot rfl finite).1
    rw [all a hmem] at ha
    cases ha
  exact ⟨spoiled, solve_of_infinite_dot reached.valid cs m spoiled⟩

/-- Infinite entries of both signs in lanes that are joined, and a NaN in what fills no block. -/
def unruly (T : Type) [Scalar T] : List T := [1, 1 / 0, 1, 1, 1, -1 / 0, 1, 1, 0 / 0]

theorem solve_refuses_infinite_unruly :
    (watched.Reachable ∧ (∃ a ∈ unruly Float, isFinite a = false) ∧
      (watched.solve twoEquations (unruly Float) 5).events =
        [.called (.space .copy) none, .called (.space .dot) none]) ∧
    ∃ solver : Solver Float32, solver.Reachable ∧ (∃ a ∈ unruly Float32, isFinite a = false) ∧
      ∀ cs : Collaborators (Euclidean Float32) (Rule Float32) (Rule Float32) (Criterion Float32),
        (solver.solve cs (unruly Float32) 5).collaborators = cs := by
  have created : create (Settings.standard : Settings Float32) =
      .ok { settings := .standard, report := .blank, monitors := [] } := rfl
  have double : ∃ a ∈ unruly Float, isFinite a = false := ⟨1 / 0, by simp [unruly], by decide⟩
  have single : ∃ a ∈ unruly Float32, isFinite a = false := ⟨0 / 0, by simp [unruly], by decide⟩
  refine ⟨⟨reachable_watched, double, ?_⟩, _, .create created, single, fun cs => ?_⟩
  · rw [(solve_refuses_infinite reachable_watched twoEquations (unruly Float) 5 double).2]
  · rw [(solve_refuses_infinite (.create created) cs (unruly Float32) 5 single).2]

end Solver

end TrustRegion
