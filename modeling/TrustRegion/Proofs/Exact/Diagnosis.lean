import TrustRegion.Proofs.Exact.Recurrence

/-! The reason why a solve stopped is true of the problem and of the returned step. -/
namespace TrustRegion

open scoped RealInnerProductSpace

/-- The norm of a step that is held against the radius, where the preconditioner inverts `M`. -/
noncomputable def DirectionNorm.measure {E : Type} [NormedAddCommGroup E] [InnerProductSpace ℝ E]
    (norm : DirectionNorm) (M : E ≃ₗ[ℝ] E) (x : E) : ℝ :=
  match norm with
  | .preconditioned => √⟪x, M x⟫
  | .unpreconditioned => ‖x‖

namespace Subproblem

open Iterate

section

variable {E : Type} [NormedAddCommGroup E] [InnerProductSpace ℝ E] {A : E →ₗ[ℝ] E}
  {M : E ≃ₗ[ℝ] E} {Q : Subproblem E} {k i : ℕ} {it : Iterate ℝ E} {q : ℝ} {r x z : E}
  {f : Figures ℝ} {reason : Reason}

/-- The subproblem of a symmetric operator with the inverse of a positive definite matrix as its
preconditioner. -/
structure Poses (Q : Subproblem E) (A : E →ₗ[ℝ] E) (M : E ≃ₗ[ℝ] E) : Prop where
  symmetric : A.IsSymmetric
  metric : (M : E →ₗ[ℝ] E).IsSymmetric
  positive : ∀ x ≠ 0, 0 < ⟪x, M x⟫
  acts : Q.ActsBy A
  preconditions : Q.PreconditionsBy M.symm

theorem Poses.inner_pos (poses : Q.Poses A M) (hz : Q.Preconditions r z) (hr : r ≠ 0) :
    0 < ⟪r, z⟫ := by
  have hMz : M z = r := poses.preconditions.apply_eq hz
  have hne : z ≠ 0 := by
    rintro rfl
    exact hr (hMz.symm.trans (map_zero M))
  have := poses.positive z hne
  rwa [hMz, real_inner_comm] at this

theorem Poses.inner_nonneg (poses : Q.Poses A M) (hz : Q.Preconditions r z) :
    0 ≤ ⟪r, z⟫ ∧ (⟪r, z⟫ = 0 → r = 0) := by
  by_cases hr : r = 0
  · simp [hr]
  · have := poses.inner_pos hz hr
    exact ⟨this.le, fun h => absurd h this.ne'⟩

/-- The new residual has the same product with the next direction as with its preconditioned
form, so that the next direction does not vanish before the residual does. -/
theorem Reaches.nextDirection_ne_zero (h : Q.Reaches k it q) (hA : Q.ActsBy A)
    (pos : 0 < (it.stepped Q.norm z).rz) : it.nextDirection (it.stepped Q.norm z) ≠ 0 := by
  have horth : ⟪it.nextResidual, it.direction⟫ = 0 :=
    (h.solves hA).inner_nextResidual_direction h.curvature_pos.ne'
  have hprod : ⟪it.nextResidual, it.nextDirection (it.stepped Q.norm z)⟫ =
      (it.stepped Q.norm z).rz := by
    unfold nextDirection
    rw [inner_add_right, real_inner_smul_right, horth, mul_zero, add_zero]
    rfl
  intro hzero
  rw [hzero, inner_zero_right] at hprod
  exact pos.ne hprod

theorem Reaches.lt_cap (h : Q.Reaches k it q) : k = 0 ∨ k < Q.cap := by
  cases h with
  | first => exact .inl rfl
  | next _ _ _ _ _ below => exact .inr below

/-- What a reason says of the problem, of the returned step and of the figures. -/
def Explains (Q : Subproblem E) (A : E →ₗ[ℝ] E) (M : E ≃ₗ[ℝ] E) (x : E) (f : Figures ℝ) :
    Reason → Prop
  | .negativeCurvature => ∃ p ≠ 0, ⟪p, A p⟫ ≤ 0
  | .constrainedStep => 0 < Q.radius ∧ Q.norm.measure M x = Q.radius
  | .converged _ | .diverged _ => True
  | .breakdown => A x = Q.rhs
  | .iterationLimit => f.iterations = max 1 Q.cap ∧ A x ≠ Q.rhs
  | .badPreconditioner | .indefinitePreconditioner | .badOperator => False

theorem Ends.measure_eq (h : Q.Ends k .constrainedStep x f) (poses : Q.Poses A M) :
    0 < Q.radius ∧ Q.norm.measure M x = Q.radius := by
  have hr : 0 < Q.radius := by
    cases h with
    | boundary _ constrained => exact constrained
    | inside _ _ _ stops => exact absurd rfl stops.ne_constrainedStep
  refine ⟨hr, ?_⟩
  cases hn : Q.norm with
  | preconditioned =>
    have reports := h.reports hn poses.symmetric poses.metric poses.positive poses.acts
      poses.preconditions
    exact reports.norm.symm.trans (reports.onBoundary rfl)
  | unpreconditioned =>
    have reports := h.reports_id hn hr.le
    have hnorm : ‖x‖ = f.stepNorm := by
      rw [reports.norm, norm_eq_sqrt_real_inner]
      rfl
    exact hnorm.trans (reports.onBoundary rfl)

theorem Reaches.explains_stop (pass : Q.Reaches k it q) (poses : Q.Poses A M)
    (hz : Q.Preconditions it.nextResidual z) (stops : Q.Stops k it (it.stepped Q.norm z) reason i)
    (hi : f.iterations = i) : Q.Explains A M it.nextStep f reason := by
  have hres : it.nextResidual = Q.rhs - A it.nextStep := (pass.solves poses.acts).nextResidual_eq
  obtain ⟨nonneg, vanishes⟩ := poses.inner_nonneg hz
  cases stops with
  | indefinite neg => exact absurd neg nonneg.not_gt
  | converged => trivial
  | diverged => trivial
  | breakdown _ zero =>
    have hprev : it.rz ≠ 0 := (pass.rz_pos poses.positive poses.preconditions).ne'
    have hzero : it.nextResidual = 0 := vanishes (zero.resolve_left hprev)
    rw [hres, sub_eq_zero] at hzero
    exact hzero.symm
  | limit _ pos reached =>
    refine ⟨?_, fun hsolved => ?_⟩
    · have := pass.lt_cap
      omega
    · have hzero : it.nextResidual = 0 := by rw [hres, hsolved, sub_self]
      have hpos : 0 < ⟪it.nextResidual, z⟫ := pos
      rw [hzero, inner_zero_left] at hpos
      exact lt_irrefl _ hpos
  | curvature _ pos _ hw flat =>
    rw [poses.acts _ _ hw] at flat
    exact ⟨_, pass.nextDirection_ne_zero poses.acts pos, flat⟩

theorem Ends.explains (h : Q.Ends k reason x f) (poses : Q.Poses A M) (hb : Q.rhs ≠ 0) :
    Q.Explains A M x f reason := by
  have hopen {z : E} (hz : Q.Opens z) : 0 < ⟪Q.rhs, z⟫ := poses.inner_pos (Q.opens_le _ hz) hb
  have hne {z : E} (hz : Q.Opens z) : z ≠ 0 := by
    rintro rfl
    have := hopen hz
    simp at this
  cases h with
  | indefinite hz neg => exact absurd neg (hopen hz).not_gt
  | leaves hz _ hw flat =>
    rw [poses.acts _ _ hw] at flat
    exact ⟨_, hne hz, flat⟩
  | fallsBack hz _ hw flat =>
    rw [poses.acts _ _ hw] at flat
    exact ⟨_, hne hz, flat⟩
  | boundary pass constrained crosses length =>
    exact Ends.measure_eq (.boundary pass constrained crosses length) poses
  | inside pass _ hz stops => exact pass.explains_stop poses hz stops rfl

end

end Subproblem

section

variable {n : ℕ} {H P C : Type} [ActsOn (List Exact) H] [ActsOn (List Exact) P]
  [ConvergenceTest Exact C]

/-- In exact arithmetic, for a symmetric operator and the inverse of a positive definite `M` as the
preconditioner, the reason of a solve is true. A direction of no positive curvature exists, the step
solves the system, it ends on the boundary, or all iterations were made and it does not solve the
system; collaborators of this kind are never found at fault. -/
theorem solve_reason_true {A : RealVector n →ₗ[ℝ] RealVector n}
    {M : RealVector n ≃ₗ[ℝ] RealVector n} {solver : Solver Exact}
    {cs : Collaborators (Euclidean Exact) H P C} {b : RealVector n} {m : ℕ}
    {solution : Solution Exact (List Exact)} (hA : A.IsSymmetric)
    (hM : (M : RealVector n →ₗ[ℝ] RealVector n).IsSymmetric) (hpos : ∀ x ≠ 0, 0 < ⟪x, M x⟫)
    (hb : b ≠ 0) (hH : Computes A cs.operator) (hP : Computes M.symm cs.preconditioner)
    (h : (solver.solve cs (entries b) m).result = .ok solution) :
    ∃ x : RealVector n, solution.step = entries x ∧
      (solution.reason = .negativeCurvature → ∃ p ≠ 0, ⟪p, A p⟫ ≤ 0) ∧
      ((∀ p ≠ 0, 0 < ⟪p, A p⟫) → solution.reason ≠ .negativeCurvature) ∧
      (solution.reason = .breakdown → A x = b) ∧
      (solution.reason = .constrainedStep → 0 < solver.settings.radius ∧
        .real (solver.settings.directionNorm.measure M x) = solver.settings.radius) ∧
      (solution.reason = .iterationLimit → solution.iterations = max 1 (min m n) ∧ A x ≠ b) ∧
      solution.reason ≠ .badPreconditioner ∧ solution.reason ≠ .indefinitePreconditioner ∧
      solution.reason ≠ .badOperator := by
  obtain ⟨fits, x, f, ends, hx, -, -, hit⟩ := Solver.solve_lift hH.answers hP.answers h
  have explains := ends.explains ⟨hA, hM, hpos, fun _ _ hw => hw, fun _ _ hz => hz⟩ hb
  have never {reason : Reason} (hreason : ¬ (solver.settings.subproblem b m (fun x w => w = A x)
      fun x z => z = M.symm x).Explains A M x f reason) : solution.reason ≠ reason := by
    rintro rfl
    exact hreason explains
  refine ⟨x, hx, ?_, ?_, ?_, ?_, ?_, never id, never id, never id⟩
  · intro hreason
    rwa [hreason] at explains
  · intro hdef
    apply never
    rintro ⟨p, hp, hflat⟩
    exact hflat.not_gt (hdef p hp)
  · intro hreason
    rwa [hreason] at explains
  · intro hreason
    rw [hreason] at explains
    obtain ⟨hr, hnorm⟩ := explains
    rw [fits.radius]
    exact ⟨hr, congrArg Exact.real hnorm⟩
  · intro hreason
    rw [hreason] at explains
    obtain ⟨hcap, hunsolved⟩ := explains
    exact ⟨hit.trans hcap, hunsolved⟩

/-- The operator `2 I` with the inverse of itself as the preconditioner, within the radius 1. -/
theorem solve_reason_true_scaling :
    ∃ solution, ((Solver.plain 1 .preconditioned).solve (.scaling 2 2⁻¹)
        (entries !₂[3, 4]) 5).result = .ok solution ∧
      ∃ x : RealVector 2, solution.step = entries x ∧ solution.reason ≠ .negativeCurvature ∧
        (solution.reason = .breakdown → (2 : ℝ) • x = !₂[3, 4]) ∧
        (solution.reason = .constrainedStep → Exact.real √⟪x, (2 : ℝ) • x⟫ = .real 1) ∧
        (solution.reason = .iterationLimit →
          solution.iterations = max 1 (min 5 2) ∧ (2 : ℝ) • x ≠ !₂[3, 4]) ∧
        solution.reason ≠ .badPreconditioner ∧ solution.reason ≠ .indefinitePreconditioner ∧
        solution.reason ≠ .badOperator := by
  have hpos := inner_smul_self_pos (n := 2) two_pos
  have hH : Computes ((2 : ℝ) • LinearMap.id : RealVector 2 →ₗ[ℝ] RealVector 2)
      (Collaborators.scaling 2 2⁻¹).operator := (Rule.serves_scale 2).computes
  have hP : Computes (LinearEquiv.smulOfNeZero ℝ (RealVector 2) 2 two_ne_zero).symm
      (Collaborators.scaling 2 2⁻¹).preconditioner := (Rule.serves_scale 2⁻¹).computes
  obtain ⟨solution, h⟩ :=
    Solver.solve_scaling zero_le_one .preconditioned 2 2⁻¹ (!₂[3, 4] : RealVector 2) 5
  obtain ⟨x, hx, -, hcurv, hsolved, hcut, hlimit, hnever⟩ := solve_reason_true
    (M := LinearEquiv.smulOfNeZero ℝ (RealVector 2) 2 two_ne_zero) (isSymmetric_smul_id 2)
    (isSymmetric_smul_id 2) hpos three_four_ne_zero hH hP h
  exact ⟨solution, h, x, hx, hcurv hpos, hsolved, fun hreason => (hcut hreason).2, hlimit, hnever⟩

end

end TrustRegion
