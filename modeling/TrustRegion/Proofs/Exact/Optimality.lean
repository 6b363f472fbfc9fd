import TrustRegion.Proofs.Exact.Krylov
import TrustRegion.Proofs.Exact.Scaling

/-! Full steps minimise the model over the Krylov space. -/
namespace TrustRegion

open scoped RealInnerProductSpace

section

variable {E : Type} [NormedAddCommGroup E] [InnerProductSpace ℝ E] {A P : E →ₗ[ℝ] E}

namespace Iterate

variable {b v : E} {k : ℕ} {it : Iterate ℝ E}

theorem Explores.positive (h : it.Explores A P b k) (hA : A.IsSymmetric) (hc : 0 < it.curvature)
    (hpos : ∀ u ∈ krylov A P b k, u ≠ 0 → 0 < ⟪u, A u⟫) (hv : v ∈ krylov A P b (k + 1))
    (hne : v ≠ 0) : 0 < ⟪v, A v⟫ := by
  obtain ⟨u, hu, c, rfl⟩ := h.exists_add_smul hv
  have hup : ⟪u, A it.direction⟫ = 0 := h.product ▸ h.conjugate u hu
  have hpu : ⟪it.direction, A u⟫ = 0 := by rw [← hA, real_inner_comm, hup]
  have hsum : ⟪u + c • it.direction, A (u + c • it.direction)⟫ =
      ⟪u, A u⟫ + c * c * it.curvature := by
    simp only [map_add, map_smul, inner_add_left, inner_add_right, real_inner_smul_left,
      real_inner_smul_right, hup, hpu, h.curvature]
    ring
  rw [hsum]
  by_cases hu0 : u = 0
  · have hc0 : c ≠ 0 := by
      rintro rfl
      exact hne (by rw [hu0, zero_smul, add_zero])
    rw [hu0, map_zero, inner_zero_right, zero_add]
    exact mul_pos (mul_self_pos.mpr hc0) hc
  · exact add_pos_of_pos_of_nonneg (hpos u hu hu0) (mul_nonneg (mul_self_nonneg c) hc.le)

end Iterate

namespace Subproblem

open Iterate

variable {Q : Subproblem E} {k : ℕ} {it : Iterate ℝ E} {q : ℝ} {v y : E}

theorem Reaches.positive (h : Q.Reaches k it q) (hA : A.IsSymmetric) (hP : P.IsSymmetric)
    (hQ : Q.ActsBy A) (hQ' : Q.PreconditionsBy P) (hv : v ∈ krylov A P Q.rhs (k + 1))
    (hne : v ≠ 0) : 0 < ⟪v, A v⟫ := by
  induction h generalizing v with
  | first hz hw nonneg curved =>
    have first := Reaches.first hz hw nonneg curved
    refine (first.explores hA hP hQ hQ').positive hA first.curvature_pos ?_ hv hne
    intro u hu hu0
    rw [krylov_zero] at hu
    exact absurd hu hu0
  | next pass inside hz prev pos below hw curved ih =>
    have next := Reaches.next pass inside hz prev pos below hw curved
    exact (next.explores hA hP hQ hQ').positive hA curved (fun u hu => ih hu) hv hne

/-- The full step of a pass leads to the only minimiser of the model over the next space. -/
theorem Reaches.model_nextStep_lt (h : Q.Reaches k it q) (hA : A.IsSymmetric)
    (hP : P.IsSymmetric) (hQ : Q.ActsBy A) (hQ' : Q.PreconditionsBy P)
    (hy : y ∈ krylov A P Q.rhs (k + 1)) (hne : y ≠ it.nextStep) :
    model A Q.rhs it.nextStep < model A Q.rhs y := by
  have explores := h.explores hA hP hQ hQ'
  have he : y - it.nextStep ∈ krylov A P Q.rhs (k + 1) := sub_mem hy explores.nextStep_mem
  have hres : ⟪Q.rhs - A it.nextStep, y - it.nextStep⟫ = 0 := by
    rw [← explores.nextResidual_eq, real_inner_comm]
    exact explores.nextResidual_orthogonal h.curvature_pos.ne' he
  have hpos := h.positive hA hP hQ hQ' he (sub_ne_zero.mpr hne)
  have hline := model_add_smul (b := Q.rhs) hA it.nextStep (y - it.nextStep) 1
  rw [one_smul, add_sub_cancel, hres] at hline
  linarith

theorem Ends.minimises {x : E} {f : Figures ℝ} {reason : Reason} (h : Q.Ends k reason x f)
    (hA : A.IsSymmetric) (hP : P.IsSymmetric) (hQ : Q.ActsBy A) (hQ' : Q.PreconditionsBy P)
    (hk : 1 ≤ k) (hreason : reason ≠ .constrainedStep) :
    x ∈ krylov A P Q.rhs k ∧
      ∀ y ∈ krylov A P Q.rhs k, y ≠ x → model A Q.rhs x < model A Q.rhs y := by
  cases h with
  | indefinite | leaves | fallsBack => exact absurd hk (Nat.not_succ_le_zero 0)
  | boundary => exact absurd rfl hreason
  | inside pass =>
    exact ⟨(pass.explores hA hP hQ hQ').nextStep_mem,
      fun y hy hne => pass.model_nextStep_lt hA hP hQ hQ' hy hne⟩

theorem Ends.one_le_fullSteps {x : E} {f : Figures ℝ} {reason : Reason}
    (h : Q.Ends k reason x f) (hr : Q.radius = 0)
    (hz : ∀ z, Q.Preconditions Q.rhs z → 0 ≤ ⟪Q.rhs, z⟫)
    (hw : ∀ z w, Q.Preconditions Q.rhs z → Q.Acts z w → 0 < ⟪z, w⟫) :
    1 ≤ k ∧ reason ≠ .constrainedStep := by
  cases h with
  | indefinite pre neg => exact absurd neg (hz _ (Q.opens_le _ pre)).not_gt
  | leaves pre _ act flat => exact absurd flat (hw _ _ (Q.opens_le _ pre) act).not_ge
  | fallsBack pre _ act flat => exact absurd flat (hw _ _ (Q.opens_le _ pre) act).not_ge
  | boundary _ constrained => exact absurd hr constrained.ne'
  | inside _ _ _ stops => exact ⟨Nat.le_add_left 1 _, stops.ne_constrainedStep⟩

end Subproblem

end

section

variable {n : ℕ} {H P C : Type} [ActsOn (List Exact) H] [ActsOn (List Exact) P]
  [ConvergenceTest Exact C]

/-- In exact arithmetic, with symmetric collaborators, the step returned after `k` full steps that
nothing cut off is the only minimiser of the model over the Krylov space of dimension at most `k`.
The preconditioner need not be definite. -/
theorem solve_minimises_over_krylov {A B : RealVector n →ₗ[ℝ] RealVector n}
    {solver : Solver Exact} {cs : Collaborators (Euclidean Exact) H P C} {b : RealVector n}
    {m k : ℕ} {solution : Solution Exact (List Exact)} (hA : A.IsSymmetric) (hB : B.IsSymmetric)
    (hH : Computes A cs.operator) (hP : Computes B cs.preconditioner)
    (h : (solver.solve cs (entries b) m).result = .ok solution)
    (hk : Event.fullSteps (solver.solve cs (entries b) m).events = k) (hpos : 1 ≤ k)
    (hreason : solution.reason ≠ .constrainedStep) :
    ∃ x : RealVector n, solution.step = entries x ∧ x ∈ krylov A B b k ∧
      ∀ y ∈ krylov A B b k, y ≠ x →
        -⟪b, x⟫ + 1 / 2 * ⟪x, A x⟫ < -⟪b, y⟫ + 1 / 2 * ⟪y, A y⟫ := by
  obtain ⟨-, x, f, ends, hx, -⟩ := Solver.solve_lift hH.answers hP.answers h
  rw [hk] at ends
  exact ⟨x, hx, ends.minimises hA hB (fun _ _ hw => hw) (fun _ _ hz => hz) hpos hreason⟩

/-- The operator `2 I` with the preconditioner `3 I`, without a radius. -/
theorem solve_minimises_over_krylov_scaling :
    ∃ solution k, ((Solver.plain 0 .preconditioned).solve (.scaling 2 3)
        (entries !₂[3, 4]) 5).result = .ok solution ∧
      Event.fullSteps ((Solver.plain 0 .preconditioned).solve (.scaling 2 3)
        (entries (!₂[3, 4] : RealVector 2)) 5).events = k ∧ 1 ≤ k ∧
      solution.reason ≠ .constrainedStep ∧ ∃ x : RealVector 2, solution.step = entries x ∧
        x ∈ krylov ((2 : ℝ) • LinearMap.id) ((3 : ℝ) • LinearMap.id) !₂[3, 4] k ∧
        ∀ y ∈ krylov ((2 : ℝ) • LinearMap.id) ((3 : ℝ) • LinearMap.id) !₂[3, 4] k, y ≠ x →
          -⟪!₂[3, 4], x⟫ + 1 / 2 * ⟪x, (2 : ℝ) • x⟫ <
            -⟪!₂[3, 4], y⟫ + 1 / 2 * ⟪y, (2 : ℝ) • y⟫ := by
  obtain ⟨solution, h⟩ :=
    Solver.solve_scaling le_rfl .preconditioned 2 3 (!₂[3, 4] : RealVector 2) 5
  have hH := (Rule.serves_scale (n := 2) 2).computes
  have hP := (Rule.serves_scale (n := 2) 3).computes
  obtain ⟨-, x, f, ends, -⟩ := Solver.solve_lift hH.answers hP.answers h
  have hb : 0 < ⟪(!₂[3, 4] : RealVector 2), !₂[3, 4]⟫ := by simp
  have hz : 0 ≤ ⟪(!₂[3, 4] : RealVector 2), (3 : ℝ) • !₂[3, 4]⟫ := by
    rw [real_inner_smul_right]
    positivity
  have hw : 0 < ⟪(3 : ℝ) • (!₂[3, 4] : RealVector 2), (2 : ℝ) • (3 : ℝ) • !₂[3, 4]⟫ := by
    simp only [real_inner_smul_left, real_inner_smul_right]
    positivity
  obtain ⟨hk, hreason⟩ := ends.one_le_fullSteps rfl
    (by rintro z rfl; exact hz) (by rintro z w rfl rfl; exact hw)
  exact ⟨solution, _, h, rfl, hk, hreason, solve_minimises_over_krylov (isSymmetric_smul_id 2)
    (isSymmetric_smul_id 3) hH hP h rfl hk hreason⟩

end

end TrustRegion
