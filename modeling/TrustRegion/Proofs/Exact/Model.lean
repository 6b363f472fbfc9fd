import TrustRegion.Proofs.Exact.Tracking

/-! The quadratic model, and the residuals of conjugate gradients as its gradients. -/
namespace TrustRegion

open scoped RealInnerProductSpace

variable {E : Type} [NormedAddCommGroup E] [InnerProductSpace ℝ E] {A : E →ₗ[ℝ] E} {b : E}

theorem model_add_smul (hA : A.IsSymmetric) (s p : E) (τ : ℝ) :
    model A b (s + τ • p) = model A b s + τ * (1 / 2 * τ * ⟪p, A p⟫ - ⟪b - A s, p⟫) := by
  have hsym : ⟪p, A s⟫ = ⟪A s, p⟫ := real_inner_comm _ _
  have hcross : ⟪s, A p⟫ = ⟪A s, p⟫ := (hA s p).symm
  simp only [model, map_add, map_smul, inner_add_left, inner_add_right, inner_sub_left,
    real_inner_smul_left, real_inner_smul_right, hsym, hcross]
  ring

namespace Iterate

/-- The vectors of an iterate are those of conjugate gradients for `A s = b`. -/
structure Solves (A : E →ₗ[ℝ] E) (b : E) (it : Iterate ℝ E) : Prop where
  residual : it.residual = b - A it.step
  product : it.product = A it.direction
  curvature : it.curvature = ⟪it.direction, A it.direction⟫
  rz : it.rz = ⟪it.residual, it.direction⟫

variable {it : Iterate ℝ E}

theorem Solves.nextResidual_eq (h : it.Solves A b) : it.nextResidual = b - A it.nextStep := by
  unfold nextResidual nextStep
  rw [h.residual, h.product, map_add, map_smul, sub_add_eq_sub_sub]

/-- The residual after the full step has no component left along the direction. -/
theorem Solves.inner_nextResidual_direction (h : it.Solves A b) (hc : it.curvature ≠ 0) :
    ⟪it.nextResidual, it.direction⟫ = 0 := by
  have hp : ⟪it.product, it.direction⟫ = it.curvature := by
    rw [h.product, h.curvature, real_inner_comm]
  unfold nextResidual fullLength
  rw [inner_sub_left, real_inner_smul_left, ← h.rz, hp, div_mul_cancel₀ _ hc, sub_self]

theorem Solves.model_along (h : it.Solves A b) (hA : A.IsSymmetric) (τ : ℝ) :
    model A b (it.step + τ • it.direction) = model A b it.step + it.changeAlong τ := by
  unfold changeAlong
  rw [model_add_smul hA, h.curvature, h.rz, h.residual]

theorem Solves.model_nextStep (h : it.Solves A b) (hA : A.IsSymmetric) (hc : it.curvature ≠ 0) :
    model A b it.nextStep = model A b it.step - 1 / 2 * it.fullLength * it.rz := by
  have hrz : it.fullLength * it.curvature = it.rz := div_mul_cancel₀ _ hc
  unfold nextStep
  rw [h.model_along hA]
  unfold changeAlong
  linear_combination 1 / 2 * it.fullLength * hrz

end Iterate

namespace Subproblem

open Iterate

variable {Q : Subproblem E} {k : ℕ} {it : Iterate ℝ E} {q : ℝ}

def ActsBy (Q : Subproblem E) (A : E →ₗ[ℝ] E) : Prop := ∀ x w, Q.Acts x w → w = A x

theorem opening_solves {z : E} : (opening Q.norm Q.rhs z (A z)).Solves A Q.rhs where
  residual := by simp [opening]
  product := rfl
  curvature := rfl
  rz := rfl

theorem Reaches.solves (h : Q.Reaches k it q) (hA : Q.ActsBy A) : it.Solves A Q.rhs := by
  induction h with
  | first _ hw =>
    rw [hA _ _ hw]
    exact opening_solves
  | @next k it q z w pass _ _ _ _ _ hw _ ih =>
    rw [hA _ _ hw]
    refine ⟨ih.nextResidual_eq, rfl, rfl, ?_⟩
    -- The old direction does not count in `r·p`: the new residual is orthogonal to it.
    simp only [turned, nextDirection, inner_add_right, real_inner_smul_right]
    simp only [stepped, ih.inner_nextResidual_direction pass.curvature_pos.ne', mul_zero, add_zero]

end Subproblem

end TrustRegion
