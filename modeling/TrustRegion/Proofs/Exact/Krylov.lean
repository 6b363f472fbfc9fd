import TrustRegion.Proofs.Exact.Model

/-! Krylov spaces: where the iterates lie, and what the residuals and the directions are
orthogonal to. -/
namespace TrustRegion

open scoped RealInnerProductSpace

variable {E : Type} [NormedAddCommGroup E] [InnerProductSpace ℝ E]

/-- The span of the first `k` among `P b`, `(P A) P b`, `(P A)² P b` and so on. -/
def krylov (A P : E →ₗ[ℝ] E) (b : E) (k : ℕ) : Submodule ℝ E :=
  Submodule.span ℝ {v | ∃ i < k, v = (P ∘ₗ A)^[i] (P b)}

section Krylov

variable (A P : E →ₗ[ℝ] E) (b : E) {v : E} {i j k : ℕ}

theorem krylov_mono (h : i ≤ j) : krylov A P b i ≤ krylov A P b j :=
  Submodule.span_mono fun _ ⟨l, hl, hv⟩ => ⟨l, hl.trans_le h, hv⟩

theorem iterate_mem_krylov (h : i < k) : (P ∘ₗ A)^[i] (P b) ∈ krylov A P b k :=
  Submodule.subset_span ⟨i, h, rfl⟩

@[simp] theorem krylov_zero : krylov A P b 0 = ⊥ := by
  simp [krylov]

theorem krylov_succ_le :
    krylov A P b (k + 1) ≤ krylov A P b k ⊔ Submodule.span ℝ {(P ∘ₗ A)^[k] (P b)} := by
  refine Submodule.span_le.mpr ?_
  rintro v ⟨i, hi, rfl⟩
  rcases Nat.lt_succ_iff_lt_or_eq.mp hi with hi | rfl
  · exact Submodule.mem_sup_left (iterate_mem_krylov A P b hi)
  · exact Submodule.mem_sup_right (Submodule.mem_span_singleton_self _)

variable {A P b}

theorem apply_mem_krylov (hv : v ∈ krylov A P b k) : P (A v) ∈ krylov A P b (k + 1) := by
  induction hv using Submodule.span_induction with
  | mem v hv =>
    obtain ⟨i, hi, rfl⟩ := hv
    have hnext : P (A ((P ∘ₗ A)^[i] (P b))) = (P ∘ₗ A)^[i + 1] (P b) :=
      (Function.iterate_succ_apply' (P ∘ₗ A) i (P b)).symm
    rw [hnext]
    exact iterate_mem_krylov A P b (Nat.succ_lt_succ hi)
  | zero => simp
  | add u v _ _ hu hv =>
    rw [map_add, map_add]
    exact add_mem hu hv
  | smul c v _ hv =>
    rw [map_smul, map_smul]
    exact Submodule.smul_mem _ c hv

end Krylov

namespace Iterate

variable {A P : E →ₗ[ℝ] E} {b v : E} {k : ℕ} {it : Iterate ℝ E} {norm : DirectionNorm}

theorem nextDirection_stepped :
    it.nextDirection (it.stepped norm (P it.nextResidual)) = P it.nextResidual +
      (⟪it.nextResidual, P it.nextResidual⟫ / it.rz) • it.direction :=
  rfl

/-- After `k` full steps the step lies in the Krylov space, the residual is orthogonal to it, and
the direction leads from it to the next one, conjugate to it. -/
structure Explores (A P : E →ₗ[ℝ] E) (b : E) (k : ℕ) (it : Iterate ℝ E) : Prop
    extends it.Solves A b where
  preconditioned : it.preconditioned = P it.residual
  rz_eq : it.rz = ⟪it.residual, it.preconditioned⟫
  step_mem : it.step ∈ krylov A P b k
  preconditioned_mem : it.preconditioned ∈ krylov A P b (k + 1)
  direction_mem : it.direction ∈ krylov A P b (k + 1)
  spans : krylov A P b (k + 1) ≤ krylov A P b k ⊔ Submodule.span ℝ {it.direction}
  orthogonal : ∀ v ∈ krylov A P b k, ⟪v, it.residual⟫ = 0
  conjugate : ∀ v ∈ krylov A P b k, ⟪v, it.product⟫ = 0

namespace Explores

variable (h : it.Explores A P b k)

include h

theorem exists_add_smul (hv : v ∈ krylov A P b (k + 1)) :
    ∃ u ∈ krylov A P b k, ∃ c : ℝ, v = u + c • it.direction := by
  obtain ⟨u, hu, w, hw, rfl⟩ := Submodule.mem_sup.mp (h.spans hv)
  obtain ⟨c, rfl⟩ := Submodule.mem_span_singleton.mp hw
  exact ⟨u, hu, c, rfl⟩

theorem nextStep_mem : it.nextStep ∈ krylov A P b (k + 1) :=
  add_mem (krylov_mono A P b k.le_succ h.step_mem) (Submodule.smul_mem _ _ h.direction_mem)

theorem nextResidual_orthogonal (hc : it.curvature ≠ 0) (hv : v ∈ krylov A P b (k + 1)) :
    ⟪v, it.nextResidual⟫ = 0 := by
  obtain ⟨u, hu, c, rfl⟩ := h.exists_add_smul hv
  have hu' : ⟪u, it.nextResidual⟫ = 0 := by
    unfold nextResidual
    rw [inner_sub_right, real_inner_smul_right, h.orthogonal u hu, h.conjugate u hu, mul_zero,
      sub_self]
  have hp : ⟪it.direction, it.nextResidual⟫ = 0 := by
    rw [real_inner_comm, h.inner_nextResidual_direction hc]
  rw [inner_add_left, real_inner_smul_left, hu', hp, mul_zero, add_zero]

theorem apply_nextResidual :
    P it.nextResidual = it.preconditioned - it.fullLength • P (A it.direction) := by
  unfold nextResidual
  rw [map_sub, map_smul, ← h.preconditioned, h.product]

theorem fullLength_smul_apply :
    it.fullLength • P (A it.direction) = it.preconditioned - P it.nextResidual := by
  rw [h.apply_nextResidual, sub_sub_cancel]

theorem apply_nextResidual_mem : P it.nextResidual ∈ krylov A P b (k + 2) := by
  rw [h.apply_nextResidual]
  exact sub_mem (krylov_mono A P b (k + 1).le_succ h.preconditioned_mem)
    (Submodule.smul_mem _ _ (apply_mem_krylov h.direction_mem))

theorem nextDirection_mem :
    it.nextDirection (it.stepped norm (P it.nextResidual)) ∈ krylov A P b (k + 2) :=
  add_mem h.apply_nextResidual_mem
    (Submodule.smul_mem _ _ (krylov_mono A P b (k + 1).le_succ h.direction_mem))

/-- The next direction makes up for what the product with the old one adds to the space. -/
theorem nextDirection_spans (hα : it.fullLength ≠ 0) :
    krylov A P b (k + 2) ≤ krylov A P b (k + 1) ⊔
      Submodule.span ℝ {it.nextDirection (it.stepped norm (P it.nextResidual))} := by
  set p' := it.nextDirection (it.stepped norm (P it.nextResidual)) with hp'
  have hz' : P it.nextResidual ∈ krylov A P b (k + 1) ⊔ Submodule.span ℝ {p'} := by
    rw [eq_sub_of_add_eq (hp'.trans nextDirection_stepped).symm]
    exact sub_mem (Submodule.mem_sup_right (Submodule.mem_span_singleton_self _))
      (Submodule.mem_sup_left (Submodule.smul_mem _ _ h.direction_mem))
  have hp : P (A it.direction) ∈ krylov A P b (k + 1) ⊔ Submodule.span ℝ {p'} := by
    have heq : P (A it.direction) =
        it.fullLength⁻¹ • (it.preconditioned - P it.nextResidual) := by
      rw [← h.fullLength_smul_apply, inv_smul_smul₀ hα]
    rw [heq]
    exact Submodule.smul_mem _ _ (sub_mem (Submodule.mem_sup_left h.preconditioned_mem) hz')
  refine (krylov_succ_le A P b).trans (sup_le le_sup_left ?_)
  rw [Submodule.span_singleton_le_iff_mem]
  obtain ⟨u, hu, c, hv⟩ := h.exists_add_smul (iterate_mem_krylov A P b k.lt_succ_self)
  rw [Function.iterate_succ_apply', hv, map_add, map_smul]
  exact add_mem (Submodule.mem_sup_left (apply_mem_krylov hu)) (Submodule.smul_mem _ _ hp)

theorem nextDirection_conjugate (hA : A.IsSymmetric) (hP : P.IsSymmetric) (hc : it.curvature ≠ 0)
    (hrz : it.rz ≠ 0) (hv : v ∈ krylov A P b (k + 1)) :
    ⟪v, A (it.nextDirection (it.stepped norm (P it.nextResidual)))⟫ = 0 := by
  obtain ⟨u, hu, c, rfl⟩ := h.exists_add_smul hv
  set r' := it.nextResidual
  have hz' (y : E) : ⟪y, A (P r')⟫ = ⟪P (A y), r'⟫ := by rw [← hA, ← hP]
  -- Towards the earlier directions: `r'` is orthogonal to where their products lead.
  have hu' : ⟪u, A (it.nextDirection (it.stepped norm (P r')))⟫ = 0 := by
    rw [nextDirection_stepped, map_add, map_smul, inner_add_right, real_inner_smul_right, hz',
      h.nextResidual_orthogonal hc (apply_mem_krylov hu), ← h.product, h.conjugate u hu, mul_zero,
      add_zero]
  -- Towards the last one: this is what the coefficient of the old direction is for.
  have hα : it.fullLength ≠ 0 := div_ne_zero hrz hc
  have hprod : it.fullLength * ⟪P (A it.direction), r'⟫ = -⟪r', P r'⟫ := by
    rw [← real_inner_smul_left, h.fullLength_smul_apply, inner_sub_left,
      h.nextResidual_orthogonal hc h.preconditioned_mem, zero_sub, real_inner_comm]
  have hp' : ⟪it.direction, A (it.nextDirection (it.stepped norm (P r')))⟫ = 0 := by
    rw [nextDirection_stepped, map_add, map_smul, inner_add_right, real_inner_smul_right, hz',
      ← h.curvature]
    apply mul_left_cancel₀ hα
    have hcurv : it.fullLength * it.curvature = it.rz := div_mul_cancel₀ _ hc
    have hβ : ⟪r', P r'⟫ / it.rz * it.rz = ⟪r', P r'⟫ := div_mul_cancel₀ _ hrz
    linear_combination hprod + ⟪r', P r'⟫ / it.rz * hcurv + hβ
  rw [inner_add_left, real_inner_smul_left, hu', hp', mul_zero, add_zero]

theorem turned (hA : A.IsSymmetric) (hP : P.IsSymmetric) (hc : it.curvature ≠ 0)
    (hrz : it.rz ≠ 0) (next : (it.turned norm (it.stepped norm (P it.nextResidual))
      (A (it.nextDirection (it.stepped norm (P it.nextResidual))))).Solves A b) :
    (it.turned norm (it.stepped norm (P it.nextResidual))
      (A (it.nextDirection (it.stepped norm (P it.nextResidual))))).Explores A P b (k + 1) where
  toSolves := next
  preconditioned := rfl
  rz_eq := rfl
  step_mem := h.nextStep_mem
  preconditioned_mem := h.apply_nextResidual_mem
  direction_mem := h.nextDirection_mem
  spans := h.nextDirection_spans (div_ne_zero hrz hc)
  orthogonal _ hv := h.nextResidual_orthogonal hc hv
  conjugate _ hv := h.nextDirection_conjugate hA hP hc hrz hv

end Explores

end Iterate

namespace Subproblem

open Iterate

variable {A P : E →ₗ[ℝ] E} {Q : Subproblem E} {k : ℕ} {it : Iterate ℝ E} {q : ℝ}

def PreconditionsBy (Q : Subproblem E) (P : E →ₗ[ℝ] E) : Prop :=
  ∀ x z, Q.Preconditions x z → z = P x

theorem opening_explores :
    (opening Q.norm Q.rhs (P Q.rhs) (A (P Q.rhs))).Explores A P Q.rhs 0 where
  toSolves := opening_solves
  preconditioned := rfl
  rz_eq := rfl
  step_mem := zero_mem _
  preconditioned_mem := iterate_mem_krylov A P Q.rhs Nat.one_pos
  direction_mem := iterate_mem_krylov A P Q.rhs Nat.one_pos
  spans := krylov_succ_le A P Q.rhs
  orthogonal := by simp
  conjugate := by simp

theorem Reaches.explores (h : Q.Reaches k it q) (hA : A.IsSymmetric) (hP : P.IsSymmetric)
    (hQ : Q.ActsBy A) (hQ' : Q.PreconditionsBy P) : it.Explores A P Q.rhs k := by
  induction h with
  | first hz hw =>
    obtain rfl := hQ' _ _ (Q.opens_le _ hz)
    obtain rfl := hQ _ _ hw
    exact opening_explores
  | @next k it q z w pass inside hz prev pos below hw curved ih =>
    have next := (Reaches.next pass inside hz prev pos below hw curved).solves hQ
    obtain rfl := hQ' _ _ hz
    obtain rfl := hQ _ _ hw
    exact ih.turned hA hP pass.curvature_pos.ne' prev next

end Subproblem

end TrustRegion
