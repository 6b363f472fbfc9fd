import Mathlib.Analysis.InnerProductSpace.PiL2
import TrustRegion.Proofs.Exact.Diagnosis
import TrustRegion.Proofs.Exact.Objective
import TrustRegion.Proofs.Verdicts

/-! Finite termination: for a definite operator the residual vanishes after at most as many full
steps as the space has dimensions, and no earlier step is longer than the solution. -/
namespace TrustRegion

open scoped RealInnerProductSpace

section

variable {E : Type} [NormedAddCommGroup E] [InnerProductSpace ℝ E]

theorem injective_of_definite {A : E →ₗ[ℝ] E} (hdef : ∀ x ≠ 0, 0 < ⟪x, A x⟫) :
    Function.Injective A := by
  rw [injective_iff_map_eq_zero]
  intro x hx
  by_contra hne
  have := hdef x hne
  rw [hx, inner_zero_right] at this
  exact lt_irrefl _ this

namespace Iterate

variable {A P : E →ₗ[ℝ] E} {b : E} {k : ℕ} {it : Iterate ℝ E}

/-- A direction of positive curvature leads out of the space that it is conjugate to. -/
theorem Explores.krylov_lt (h : it.Explores A P b k) (hc : 0 < it.curvature) :
    krylov A P b k < krylov A P b (k + 1) := by
  refine lt_of_le_not_ge (krylov_mono A P b k.le_succ) fun hge => ?_
  have hflat : ⟪it.direction, it.product⟫ = 0 := h.conjugate _ (hge h.direction_mem)
  rw [h.product, ← h.curvature] at hflat
  exact hc.ne' hflat

end Iterate

namespace Subproblem

open Iterate Module

variable {A : E →ₗ[ℝ] E} {M : E ≃ₗ[ℝ] E} {Q : Subproblem E} {k : ℕ} {it : Iterate ℝ E} {q : ℝ}
  {x y : E} {f : Figures ℝ} {reason : Reason}

def unconstrained (Q : Subproblem E) : Subproblem E := { Q with radius := 0 }

theorem Reaches.unconstrained (h : Q.Reaches k it q) : Q.unconstrained.Reaches k it q := by
  induction h with
  | first hz hw nonneg curved => exact .first hz hw nonneg curved
  | next _ _ hz prev pos below hw curved ih =>
    exact .next ih (fun hr => absurd hr (lt_irrefl 0)) hz prev pos below hw curved

theorem Poses.unconstrained (poses : Q.Poses A M) : Q.unconstrained.Poses A M :=
  ⟨poses.symmetric, poses.metric, poses.positive, poses.acts, poses.preconditions⟩

theorem Poses.explores (poses : Q.Poses A M) (h : Q.Reaches k it q) :
    it.Explores A M.symm Q.rhs k :=
  h.explores poses.symmetric poses.metric.toLinearMap_symm poses.acts poses.preconditions

section Dimension

variable [FiniteDimensional ℝ E]

/-- Every full step adds a dimension to the space explored. -/
theorem Reaches.finrank_krylov (h : Q.Reaches k it q) (poses : Q.Poses A M) :
    k + 1 ≤ finrank ℝ (krylov A (M.symm : E →ₗ[ℝ] E) Q.rhs (k + 1)) := by
  have grows {k : ℕ} {it : Iterate ℝ E} {q : ℝ} (h : Q.Reaches k it q) :=
    Submodule.finrank_lt_finrank_of_lt ((poses.explores h).krylov_lt h.curvature_pos)
  induction h with
  | first hz hw nonneg curved =>
    have := grows (.first hz hw nonneg curved)
    omega
  | next pass inside hz prev pos below hw curved ih =>
    have := grows (.next pass inside hz prev pos below hw curved)
    omega

theorem Reaches.lt_finrank (h : Q.Reaches k it q) (poses : Q.Poses A M) : k < finrank ℝ E :=
  (h.finrank_krylov poses).trans (Submodule.finrank_le _)

theorem Reaches.nextResidual_eq_zero (h : Q.Reaches k it q) (poses : Q.Poses A M)
    (hk : finrank ℝ E ≤ k + 1) : it.nextResidual = 0 := by
  have htop : krylov A (M.symm : E →ₗ[ℝ] E) Q.rhs (k + 1) = ⊤ := by
    apply Submodule.eq_top_of_finrank_eq
    exact le_antisymm (Submodule.finrank_le _) (hk.trans (h.finrank_krylov poses))
  have hmem : it.nextResidual ∈ krylov A (M.symm : E →ₗ[ℝ] E) Q.rhs (k + 1) := by
    rw [htop]
    exact Submodule.mem_top
  exact inner_self_eq_zero.mp
    ((poses.explores h).nextResidual_orthogonal h.curvature_pos.ne' hmem)

end Dimension

section Definite

variable [FiniteDimensional ℝ E] (poses : Q.Poses A M) (hdef : ∀ x ≠ 0, 0 < ⟪x, A x⟫)
  (acts : ∀ x, Q.Acts x (A x)) (preconditions : ∀ r, Q.Preconditions r (M.symm r))
  (hcap : finrank ℝ E ≤ Q.cap)

include poses hdef acts preconditions hcap

theorem Reaches.exists_next (h : Q.Reaches k it q) (hfree : Q.radius = 0)
    (hr : it.nextResidual ≠ 0) :
    ∃ it' q', Q.Reaches (k + 1) it' q' ∧ it'.stepSq = it.nextStepSq Q.norm := by
  have hz := preconditions it.nextResidual
  have prev : it.rz ≠ 0 := (h.rz_pos poses.positive poses.preconditions).ne'
  have pos : 0 < (it.stepped Q.norm (M.symm it.nextResidual)).rz := poses.inner_pos hz hr
  have below : k + 1 < Q.cap := by
    by_contra hge
    exact hr (h.nextResidual_eq_zero poses (by omega))
  have hdir := h.nextDirection_ne_zero poses.acts pos
  have inside : Q.Inside it := fun hpos => absurd hfree hpos.ne'
  exact ⟨_, _, .next h inside hz prev pos below (acts _) (hdef _ hdir), rfl⟩

/-- The norms of the steps grow towards that of the solution. -/
theorem Reaches.fullSq_le (h : Q.Reaches k it q) (hfree : Q.radius = 0)
    (hn : Q.norm = .preconditioned) (hy : A y = Q.rhs) : it.fullSq ≤ ⟪y, M y⟫ := by
  -- By induction on the number of passes that the dimension leaves room for.
  induction hleft : finrank ℝ E - k generalizing k it q with
  | zero =>
    have := h.lt_finrank poses
    omega
  | succ left ih =>
    by_cases hr : it.nextResidual = 0
    · have hsolves : A it.nextStep = A y := by
        rw [(h.solves poses.acts).nextResidual_eq, sub_eq_zero] at hr
        rw [← hr, hy]
      have htracks := h.tracks hn poses.symmetric poses.metric poses.acts poses.preconditions
      rw [htracks.fullSq_eq poses.metric, injective_of_definite hdef hsolves]
      rfl
    · obtain ⟨it', q', next, hsq⟩ :=
        h.exists_next poses hdef acts preconditions hcap hfree hr
      calc
        it.fullSq = it'.stepSq := by rw [hsq, h.nextStepSq_eq]
        _ ≤ it'.fullSq := next.stepSq_le_fullSq hn
        _ ≤ ⟪y, M y⟫ := ih next (by omega)

/-- A solve that the convergence test leaves alone ends with the solution, if there is no radius or
the solution is well within it. -/
theorem Ends.solves (h : Q.Ends k reason x f) (hb : Q.rhs ≠ 0) (hy : A y = Q.rhs)
    (hfits : Q.radius = 0 ∨ Q.norm = .preconditioned ∧ √⟪y, M y⟫ < Q.radius)
    (hverdict : ∀ v : Verdict, v.reason? ≠ some reason) :
    reason = .breakdown ∧ f.iterations ≤ finrank ℝ E ∧ x = y := by
  have explains := h.explains poses hb
  have curved : ¬ ∃ p ≠ 0, ⟪p, A p⟫ ≤ 0 := by
    rintro ⟨p, hp, flat⟩
    exact flat.not_gt (hdef p hp)
  cases h with
  | indefinite => exact explains.elim
  | leaves => exact absurd explains curved
  | fallsBack => exact absurd explains curved
  | boundary pass constrained crosses =>
    obtain ⟨hn, hlt⟩ := hfits.resolve_left constrained.ne'
    have hsq : ⟪y, M y⟫ < Q.radius * Q.radius := by
      rw [← sq]
      exact (Real.sqrt_lt' constrained).mp hlt
    -- Without the radius the solve would come to the solution, past this crossing.
    have hle := pass.unconstrained.fullSq_le poses.unconstrained hdef acts preconditions hcap rfl
      hn hy
    linarith
  | @inside k _ it _ _ _ pass _ hz stops =>
    cases stops with
    | indefinite => exact explains.elim
    | converged _ why => exact absurd rfl (hverdict (.converged why))
    | diverged _ why => exact absurd rfl (hverdict (.diverged why))
    | breakdown =>
      have hsolves : A it.nextStep = A y := explains.trans hy.symm
      exact ⟨rfl, pass.lt_finrank poses, injective_of_definite hdef hsolves⟩
    | limit _ pos reached =>
      have hzero := pass.nextResidual_eq_zero poses (hcap.trans reached)
      simp [stepped, hzero] at pos
    | curvature => exact absurd explains curved

end Definite

end Subproblem

end

section

variable {n : ℕ} {H P : Type} [ActsOn (List Exact) H] [ActsOn (List Exact) P]

/-- In exact arithmetic, for a positive definite operator and a preconditioner of that kind, a solve
without a convergence test takes at most as many iterations as there are dimensions and returns the
solution of the system, if the cap allows as many and there is no radius or the solution is within
it. Its reason is then a breakdown. -/
theorem solve_breakdown_of_definite {A : RealVector n →ₗ[ℝ] RealVector n}
    {M : RealVector n ≃ₗ[ℝ] RealVector n} {solver : Solver Exact}
    {cs : Collaborators (Euclidean Exact) H P (Criterion Exact)} {b : RealVector n} {m : ℕ}
    (hA : A.IsSymmetric) (hdef : ∀ x ≠ 0, 0 < ⟪x, A x⟫)
    (hM : (M : RealVector n →ₗ[ℝ] RealVector n).IsSymmetric) (hpos : ∀ x ≠ 0, 0 < ⟪x, M x⟫)
    (hb : b ≠ 0) (hm : n ≤ m) (htest : cs.test = .never)
    (hr : solver.settings.radius = 0 ∨ solver.settings.directionNorm = .preconditioned ∧
      ∃ y, A y = b ∧ .real √⟪y, M y⟫ < solver.settings.radius)
    (hH : Serves A cs.operator) (hP : Serves M.symm cs.preconditioner) :
    ∃ solution, (solver.solve cs (entries b) m).result = .ok solution ∧
      solution.reason = .breakdown ∧ solution.iterations ≤ n ∧
      ∃ x : RealVector n, solution.step = entries x ∧ A x = b ∧
        solution.objective = .real (-1 / 2 * ⟪b, x⟫) := by
  have hradius : 0 ≤ solver.settings.radius := by
    obtain hzero | ⟨-, y, -, hlt⟩ := hr
    · rw [hzero]
      exact Exact.real_le.mpr le_rfl
    · exact Exact.nonneg_of_real_lt (Real.sqrt_nonneg _) hlt
  have hinj : Function.Injective A := injective_of_definite hdef
  obtain ⟨y, hy⟩ : ∃ y, A y = b := LinearMap.injective_iff_surjective.mp hinj b
  obtain ⟨solution, h⟩ := Solver.solve_total hradius hH hP (b := b) (m := m)
  obtain ⟨fits, x, f, ends, hx, -, hobj, hit⟩ :=
    Solver.solve_lift hH.computes.answers hP.computes.answers h
  have poses : (solver.settings.subproblem b m (fun x w => w = A x)
      fun r z => z = M.symm r).Poses A M := ⟨hA, hM, hpos, fun _ _ hw => hw, fun _ _ hz => hz⟩
  have idle : Idle cs.test := by
    rw [htest]
    exact idle_never
  have hverdict (v : Verdict) : v.reason? ≠ some solution.reason := Solver.reason_of_idle idle h
  have hfits : solver.settings.radius.toReal = 0 ∨
      solver.settings.directionNorm = .preconditioned ∧
        √⟪y, M y⟫ < solver.settings.radius.toReal := by
    rw [fits.radius] at hr
    obtain hzero | ⟨hn, y', hy', hlt⟩ := hr
    · exact .inl (Exact.real.inj hzero)
    · obtain rfl : y' = y := hinj (hy'.trans hy.symm)
      exact .inr ⟨hn, Exact.real_lt.mp hlt⟩
  have hrank : Module.finrank ℝ (RealVector n) = n := finrank_euclideanSpace_fin
  have hcap : Module.finrank ℝ (RealVector n) ≤ min m n := by
    rw [hrank]
    exact le_min hm le_rfl
  obtain ⟨hreason, hle, rfl⟩ :=
    ends.solves poses hdef (fun _ => rfl) (fun _ => rfl) hcap hb hy hfits hverdict
  refine ⟨solution, h, hreason, ?_, x, hx, hy, ?_⟩
  · rw [hit]
    exact hle.trans_eq hrank
  · have hmodel : f.objective = -⟪b, x⟫ + 1 / 2 * ⟪x, A x⟫ := ends.objective_eq hA poses.acts
    rw [hobj, hmodel, hy, real_inner_comm x b]
    congr 1
    ring

/-- The operator `2 I` with the inverse of itself as the preconditioner: the solution is
`(3/2, 2)`, well within the radius 4. -/
theorem solve_breakdown_of_definite_scaling :
    ∃ solution, ((Solver.plain 4 .preconditioned).solve (.scaling 2 2⁻¹)
        (entries !₂[3, 4]) 5).result = .ok solution ∧
      solution.reason = .breakdown ∧ solution.iterations ≤ 2 ∧
      ∃ x : RealVector 2, solution.step = entries x ∧ (2 : ℝ) • x = !₂[3, 4] ∧
        solution.objective = .real (-1 / 2 * ⟪!₂[3, 4], x⟫) := by
  have hpos := inner_smul_self_pos (n := 2) two_pos
  have hwithin : Exact.real √⟪(!₂[3 / 2, 2] : RealVector 2), (2 : ℝ) • !₂[3 / 2, 2]⟫ < .real 4 := by
    rw [Exact.real_lt, Real.sqrt_lt' (by norm_num)]
    simp [PiLp.inner_apply, Fin.sum_univ_two]
    norm_num
  have hsolves : (2 : ℝ) • (!₂[3 / 2, 2] : RealVector 2) = !₂[3, 4] := by
    ext i
    fin_cases i <;> norm_num
  exact solve_breakdown_of_definite (A := (2 : ℝ) • LinearMap.id)
    (M := LinearEquiv.smulOfNeZero ℝ (RealVector 2) 2 two_ne_zero) (isSymmetric_smul_id 2) hpos
    (isSymmetric_smul_id 2) hpos three_four_ne_zero (by norm_num) rfl
    (.inr ⟨rfl, _, hsolves, hwithin⟩)
    (Rule.serves_scale 2) (Rule.serves_scale 2⁻¹)

end

end TrustRegion
