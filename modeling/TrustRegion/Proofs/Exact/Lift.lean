import TrustRegion.Proofs.Exact.Descent
import TrustRegion.Proofs.Exact.Vector

/-! Real iterates, figures and settings in exact numbers, and what is computed from them. -/
namespace TrustRegion

open scoped RealInnerProductSpace

noncomputable section

variable {n : ℕ}

def Iterate.lift (it : Iterate ℝ (RealVector n)) : Iterate Exact (List Exact) where
  step := entries it.step
  residual := entries it.residual
  preconditioned := entries it.preconditioned
  direction := entries it.direction
  product := entries it.product
  rz := .real it.rz
  curvature := .real it.curvature
  stepSq := .real it.stepSq
  cross := .real it.cross
  directionSq := .real it.directionSq

def Figures.lift (f : Figures ℝ) : Figures Exact :=
  ⟨.real f.stepNorm, .real f.objective, f.iterations⟩

def Start.lift (b : Start ℝ (RealVector n)) : Start Exact (List Exact) where
  zero := entries b.zero
  residual := entries b.residual
  preconditioned := entries b.preconditioned
  rr := .real b.rr
  rz := .real b.rz

namespace Iterate

variable {it next : Iterate ℝ (RealVector n)}

theorem alpha_lift (h : it.curvature ≠ 0) : it.lift.alpha = .real it.fullLength :=
  Exact.real_div h

theorem nextSq_lift (h : it.curvature ≠ 0) : it.lift.nextSq = .real it.fullSq := by
  rw [nextSq, alpha_lift h]
  simp [lift, fullSq]

theorem beta_lift (h : it.rz ≠ 0) : it.lift.beta next.lift = .real (next.rz / it.rz) :=
  Exact.real_div h

theorem beta_vanishes :
    (!Scalar.isFinite (it.lift.beta next.lift) ||
      decide (Scalar.abs (it.lift.beta next.lift) ≤ 0)) = true ↔ it.rz = 0 ∨ next.rz = 0 := by
  by_cases h : it.rz = 0
  · simp [beta, lift, h]
  · simp [beta_lift h, h]

theorem nextResidual_eq :
    it.residual + -it.fullLength • it.product = it.nextResidual := by
  unfold nextResidual
  rw [neg_smul, sub_eq_add_neg]

theorem nextDirection_eq :
    next.preconditioned + (next.rz / it.rz) • it.direction = it.nextDirection next := rfl

theorem modelChange_lift (τ : ℝ) :
    modelChange (.real τ) it.lift.curvature it.lift.rz = .real (it.changeAlong τ) := by
  simp [modelChange, lift, changeAlong]

end Iterate

theorem Settings.exists_gradientLength {s : Settings Exact} {ρ : ℝ} (hρ : s.radius = .real ρ)
    (r : ℝ) : ∃ a, (if decide (s.radiusSq ≥ .real r) = true then 1
      else Scalar.sqrt (s.radiusSq / .real r)) = Exact.real a := by
  have hsq : s.radiusSq = .real (ρ * ρ) := by
    simp [radiusSq, hρ]
  rw [hsq]
  by_cases inside : r ≤ ρ * ρ
  · exact ⟨1, if_pos (by simpa using inside)⟩
  · have hpos : 0 < r := (mul_self_nonneg ρ).trans_lt (not_le.mp inside)
    rw [if_neg (by simpa using inside), Exact.real_div hpos.ne',
      Exact.sqrt_real (div_nonneg (mul_self_nonneg ρ) hpos.le)]
    exact ⟨_, rfl⟩

/-- The settings that a subproblem stands for. -/
structure Subproblem.Fits (Q : Subproblem (RealVector n)) (s : Settings Exact) : Prop where
  radius : s.radius = .real Q.radius
  nonneg : 0 ≤ Q.radius
  norm : s.directionNorm = Q.norm

variable {Q : Subproblem (RealVector n)} {s : Settings Exact}

theorem Subproblem.Fits.radiusSq (fits : Q.Fits s) :
    s.radiusSq = .real (Q.radius * Q.radius) := by
  simp [Settings.radiusSq, fits.radius]

theorem Subproblem.Fits.isConstrained (fits : Q.Fits s) :
    s.isConstrained = true ↔ 0 < Q.radius := by
  simp [Settings.isConstrained, fits.radius]

theorem Subproblem.gradientLength_lift :
    (if decide (Exact.real (Q.radius * Q.radius) ≥ .real ⟪Q.rhs, Q.rhs⟫) = true then 1
      else Scalar.sqrt (Exact.real (Q.radius * Q.radius) / .real ⟪Q.rhs, Q.rhs⟫)) =
        .real Q.gradientLength := by
  simp only [decide_eq_true_eq, ge_iff_le, Exact.real_le, gradientLength]
  split
  · rfl
  · next hlt =>
    have hrr : 0 < ⟪Q.rhs, Q.rhs⟫ := (mul_self_nonneg _).trans_lt (lt_of_not_ge hlt)
    rw [Exact.real_div hrr.ne', Exact.sqrt_real (div_nonneg (mul_self_nonneg _) hrr.le)]

theorem Subproblem.gradientNorm_lift :
    (if decide (Exact.real (Q.radius * Q.radius) ≥ .real ⟪Q.rhs, Q.rhs⟫) = true then
      Scalar.sqrt (Exact.real ⟪Q.rhs, Q.rhs⟫) else .real Q.radius) = .real Q.gradientNorm := by
  simp only [decide_eq_true_eq, ge_iff_le, Exact.real_le, gradientNorm,
    Exact.sqrt_real real_inner_self_nonneg]
  split <;> rfl

end

end TrustRegion
