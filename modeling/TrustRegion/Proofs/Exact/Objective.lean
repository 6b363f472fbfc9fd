import TrustRegion.Proofs.Exact.Model
import TrustRegion.Proofs.Exact.Scaling

/-! The reported objective is the value of the model at the returned step. -/
namespace TrustRegion

open scoped RealInnerProductSpace

namespace Subproblem

open Iterate

section

variable {E : Type} [NormedAddCommGroup E] [InnerProductSpace ℝ E] {A : E →ₗ[ℝ] E}
  {Q : Subproblem E} {k : ℕ} {it : Iterate ℝ E} {q : ℝ} {x : E} {f : Figures ℝ} {reason : Reason}

theorem Reaches.objective_eq (h : Q.Reaches k it q) (hA : A.IsSymmetric) (hQ : Q.ActsBy A) :
    q = model A Q.rhs it.step := by
  induction h with
  | first => simp [opening, model]
  | @next k it q z w pass _ _ _ _ _ _ _ ih =>
    rw [ih]
    exact ((pass.solves hQ).model_nextStep hA pass.curvature_pos.ne').symm

theorem FallsBack.objective_eq {i : ℕ} (h : Q.FallsBack i x f) (hQ : Q.ActsBy A) :
    f.objective = model A Q.rhs x := by
  cases h with
  | stays => simp [model]
  | falls _ hw =>
    rw [hQ _ _ hw, model, inner_sub_right, real_inner_smul_right, real_inner_comm]
    ring

theorem Ends.objective_eq (h : Q.Ends k reason x f) (hA : A.IsSymmetric) (hQ : Q.ActsBy A) :
    f.objective = model A Q.rhs x := by
  cases h with
  | indefinite _ _ falls => exact falls.objective_eq hQ
  | @leaves z w _ _ hw _ _ _ τ =>
    obtain rfl := hQ _ _ hw
    have along := (opening_solves (Q := Q) (A := A) (z := z)).model_along hA τ
    simp only [opening, zero_add] at along
    rw [along]
    simp [opening, model]
  | fallsBack _ _ _ _ _ falls => exact falls.objective_eq hQ
  | boundary pass _ _ length =>
    rw [(pass.solves hQ).model_along hA, ← pass.objective_eq hA hQ]
  | inside pass =>
    rw [(pass.solves hQ).model_nextStep hA pass.curvature_pos.ne', ← pass.objective_eq hA hQ]

end

end Subproblem

section

variable {n : ℕ} {H P C : Type} [ActsOn (List Exact) H] [ActsOn (List Exact) P]
  [ConvergenceTest Exact C]

/-- In exact arithmetic and for a symmetric operator, the reported objective is the value of the
model at the returned step, whatever the preconditioner answers. -/
theorem solve_objective_eq_model {A : RealVector n →ₗ[ℝ] RealVector n} {solver : Solver Exact}
    {cs : Collaborators (Euclidean Exact) H P C} {b : RealVector n} {m : ℕ}
    {solution : Solution Exact (List Exact)} (hA : A.IsSymmetric) (hH : Computes A cs.operator)
    (hP : StaysReal n cs.preconditioner)
    (h : (solver.solve cs (entries b) m).result = .ok solution) :
    ∃ x : RealVector n, solution.step = entries x ∧
      solution.objective = .real (-⟪b, x⟫ + 1 / 2 * ⟪x, A x⟫) := by
  obtain ⟨-, x, f, ends, hx, -, hobj, -⟩ := Solver.solve_lift hH.answers hP.answers h
  refine ⟨x, hx, ?_⟩
  rw [hobj, ends.objective_eq hA fun _ _ hw => hw]
  rfl

/-- An operator of negative curvature everywhere, within the radius 1. -/
theorem solve_objective_eq_model_scaling :
    ∃ solution, ((Solver.plain 1 .preconditioned).solve (.scaling (-2) 1)
        (entries !₂[3, 4]) 5).result = .ok solution ∧
      ∃ x : RealVector 2, solution.step = entries x ∧
        solution.objective = .real (-⟪!₂[3, 4], x⟫ + 1 / 2 * ⟪x, (-2 : ℝ) • x⟫) := by
  obtain ⟨solution, h⟩ :=
    Solver.solve_scaling zero_le_one .preconditioned (-2) 1 (!₂[3, 4] : RealVector 2) 5
  exact ⟨solution, h, solve_objective_eq_model (isSymmetric_smul_id (-2))
    (Rule.serves_scale (-2)).computes (Rule.serves_scale 1).computes.staysReal h⟩

end

end TrustRegion
