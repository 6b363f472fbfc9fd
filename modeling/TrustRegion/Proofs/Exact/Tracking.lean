import Mathlib.Analysis.InnerProductSpace.Symmetric
import TrustRegion.Proofs.Exact.Descent

/-! The tracked products: their signs, and the norms that they stand for. -/
namespace TrustRegion

open scoped RealInnerProductSpace

variable {E : Type} [NormedAddCommGroup E] [InnerProductSpace ℝ E]

namespace Iterate

/-- The tracked numbers of an iterate are the products of `d` and `p` under `M`. -/
structure Tracks (M : E →ₗ[ℝ] E) (it : Iterate ℝ E) : Prop where
  stepSq : it.stepSq = ⟪it.step, M it.step⟫
  cross : it.cross = ⟪it.step, M it.direction⟫
  directionSq : it.directionSq = ⟪it.direction, M it.direction⟫

variable {M : E →ₗ[ℝ] E} {it : Iterate ℝ E}

theorem Tracks.along (h : it.Tracks M) (hM : M.IsSymmetric) (τ : ℝ) :
    ⟪it.step + τ • it.direction, M (it.step + τ • it.direction)⟫ =
      it.stepSq + τ * (2 * it.cross + τ * it.directionSq) := by
  have hsym : ⟪it.direction, M it.step⟫ = ⟪it.step, M it.direction⟫ := by
    rw [← hM, real_inner_comm]
  rw [h.stepSq, h.cross, h.directionSq]
  simp only [map_add, map_smul, inner_add_left, inner_add_right, real_inner_smul_left,
    real_inner_smul_right, hsym]
  ring

theorem Tracks.fullSq_eq (h : it.Tracks M) (hM : M.IsSymmetric) :
    it.fullSq = ⟪it.nextStep, M it.nextStep⟫ :=
  (h.along hM _).symm

omit [NormedAddCommGroup E] [InnerProductSpace ℝ E] in
theorem boundaryLength_root {ρ : ℝ} (hp : 0 < it.directionSq) (hs : it.stepSq ≤ ρ * ρ) :
    it.stepSq + it.boundaryLength ρ * (2 * it.cross + it.boundaryLength ρ * it.directionSq) =
      ρ * ρ := by
  have hdisc : 0 ≤ it.cross * it.cross + it.directionSq * (ρ * ρ - it.stepSq) :=
    add_nonneg (mul_self_nonneg _) (mul_nonneg hp.le (sub_nonneg.mpr hs))
  have hroot := Real.mul_self_sqrt hdisc
  have hτ : it.boundaryLength ρ * it.directionSq =
      √(it.cross * it.cross + it.directionSq * (ρ * ρ - it.stepSq)) - it.cross :=
    div_mul_cancel₀ _ hp.ne'
  generalize √(it.cross * it.cross + it.directionSq * (ρ * ρ - it.stepSq)) = w at hroot hτ
  apply mul_left_cancel₀ hp.ne'
  calc
    it.directionSq * (it.stepSq +
        it.boundaryLength ρ * (2 * it.cross + it.boundaryLength ρ * it.directionSq)) =
        it.directionSq * it.stepSq + it.boundaryLength ρ * it.directionSq *
          (2 * it.cross + it.boundaryLength ρ * it.directionSq) := by ring
    _ = it.directionSq * (ρ * ρ) := by
      rw [hτ]
      linear_combination hroot

end Iterate

namespace Subproblem

open Iterate

variable {Q : Subproblem E} {k : ℕ} {it : Iterate ℝ E} {q : ℝ}

theorem Reaches.curvature_pos (h : Q.Reaches k it q) : 0 < it.curvature := by
  cases h with
  | first _ _ _ curved => exact curved
  | next _ _ _ _ _ _ _ curved => exact curved

theorem Reaches.rz_nonneg (h : Q.Reaches k it q) : 0 ≤ it.rz := by
  cases h with
  | first _ _ nonneg => exact nonneg
  | next _ _ _ _ pos => exact pos.le

theorem Reaches.fullLength_nonneg (h : Q.Reaches k it q) : 0 ≤ it.fullLength :=
  div_nonneg h.rz_nonneg h.curvature_pos.le

/-- Under the norm of the space nothing is carried over: all products are computed afresh. -/
theorem Reaches.tracks_id (h : Q.Reaches k it q) (hn : Q.norm = .unpreconditioned) :
    it.Tracks LinearMap.id := by
  cases h with
  | first => constructor <;> simp [opening, hn]
  | next =>
    constructor <;> simp [turned, stepped, nextStepSq, nextCross, nextDirectionSq, hn]

/-- Under the preconditioned norm the tracked numbers are never negative, whatever the
preconditioner answers. -/
theorem Reaches.tracked_nonneg (h : Q.Reaches k it q) (hn : Q.norm = .preconditioned) :
    0 ≤ it.stepSq ∧ 0 ≤ it.cross ∧ 0 ≤ it.directionSq ∧ (0 < it.rz → 0 < it.directionSq) := by
  induction h with
  | first _ _ nonneg => simp [opening, hn, nonneg]
  | @next k it q z w pass inside _ prev pos _ _ _ ih =>
    obtain ⟨hs, hc, hd, -⟩ := ih
    have hα := pass.fullLength_nonneg
    have hrz := pass.rz_nonneg.lt_of_ne' prev
    have hβ : 0 < (it.stepped Q.norm z).rz / it.rz := div_pos pos hrz
    have hdir : 0 < (it.turned Q.norm (it.stepped Q.norm z) w).directionSq := by
      simp only [turned, nextDirectionSq, hn]
      positivity
    refine ⟨?_, ?_, hdir.le, fun _ => hdir⟩
    · simp only [turned, stepped, nextStepSq, hn, fullSq]
      positivity
    · simp only [turned, nextCross, hn]
      positivity

theorem Reaches.nextStepSq_eq (h : Q.Reaches k it q) : it.nextStepSq Q.norm = it.fullSq := by
  cases hn : Q.norm with
  | preconditioned => rfl
  | unpreconditioned => exact ((h.tracks_id hn).fullSq_eq LinearMap.IsSymmetric.id).symm

theorem Reaches.fullSq_nonneg (h : Q.Reaches k it q) : 0 ≤ it.fullSq := by
  cases hn : Q.norm with
  | preconditioned =>
    obtain ⟨hs, hc, hd, -⟩ := h.tracked_nonneg hn
    have hα := h.fullLength_nonneg
    rw [fullSq]
    positivity
  | unpreconditioned =>
    rw [← h.nextStepSq_eq, hn]
    exact real_inner_self_nonneg

theorem Reaches.stepSq_le_fullSq (h : Q.Reaches k it q) (hn : Q.norm = .preconditioned) :
    it.stepSq ≤ it.fullSq := by
  obtain ⟨-, hc, hd, -⟩ := h.tracked_nonneg hn
  have hα := h.fullLength_nonneg
  have hgrowth : 0 ≤ it.fullLength * (2 * it.cross + it.fullLength * it.directionSq) := by
    positivity
  unfold fullSq
  linarith

theorem Reaches.stepSq_lt (h : Q.Reaches k it q) (hr : 0 < Q.radius) :
    it.stepSq < Q.radius * Q.radius := by
  cases h with
  | first => exact mul_pos hr hr
  | next pass inside => exact pass.nextStepSq_eq.trans_lt (inside hr)

theorem Reaches.directionSq_pos (h : Q.Reaches k it q) (hr : 0 < Q.radius)
    (crosses : Q.radius * Q.radius ≤ it.fullSq) : 0 < it.directionSq := by
  cases hn : Q.norm with
  | preconditioned =>
    refine (h.tracked_nonneg hn).2.2.2 (h.rz_nonneg.lt_of_ne' fun hrz => ?_)
    have := h.stepSq_lt hr
    simp only [fullSq, fullLength, hrz, zero_div, zero_mul, add_zero] at crosses
    linarith
  | unpreconditioned =>
    rw [(h.tracks_id hn).directionSq]
    refine real_inner_self_pos.mpr fun hp => ?_
    have := h.stepSq_lt hr
    rw [(h.tracks_id hn).fullSq_eq LinearMap.IsSymmetric.id, nextStep, hp, smul_zero, add_zero,
      ← (h.tracks_id hn).stepSq] at crosses
    linarith

end Subproblem

end TrustRegion
