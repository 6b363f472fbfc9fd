import TrustRegion.Proofs.Exact.Krylov
import TrustRegion.Proofs.Exact.StepNorm

/-! The recurrences of the preconditioned norm: the tracked numbers are products under the matrix
whose inverse is applied, and the norm of the step grows. -/
namespace TrustRegion

open scoped RealInnerProductSpace

namespace Iterate

section

variable {E : Type} [NormedAddCommGroup E] [InnerProductSpace ℝ E] {A : E →ₗ[ℝ] E}
  {M : E ≃ₗ[ℝ] E} {b : E} {k : ℕ} {it : Iterate ℝ E}

/-- The next direction is tracked as well, since the products that the recurrences leave out
vanish. -/
theorem Tracks.turned (h : it.Tracks (M : E →ₗ[ℝ] E)) (explores : it.Explores A M.symm b k)
    (hM : (M : E →ₗ[ℝ] E).IsSymmetric) (hc : it.curvature ≠ 0) (hrz : it.rz ≠ 0) (w : E) :
    (it.turned .preconditioned (it.stepped .preconditioned (M.symm it.nextResidual)) w).Tracks
      (M : E →ₗ[ℝ] E) := by
  set r' := it.nextResidual
  have hβ : ⟪r', M.symm r'⟫ / it.rz * it.rz = ⟪r', M.symm r'⟫ := div_mul_cancel₀ _ hrz
  have hstep : ⟪it.nextStep, r'⟫ = 0 :=
    explores.nextResidual_orthogonal hc explores.nextStep_mem
  have hdir : ⟪it.direction, r'⟫ = 0 :=
    explores.nextResidual_orthogonal hc explores.direction_mem
  have hz : ⟪M.symm r', M it.direction⟫ = 0 := by
    have := hM (M.symm r') it.direction
    simp only [LinearEquiv.coe_coe, LinearEquiv.apply_symm_apply] at this
    rw [← this, real_inner_comm, hdir]
  have hself : ⟪M.symm r', r'⟫ = ⟪r', M.symm r'⟫ := real_inner_comm _ _
  have hcross : ⟪it.nextStep, M it.direction⟫ = it.cross + it.fullLength * it.directionSq := by
    rw [nextStep, inner_add_left, real_inner_smul_left, h.cross, h.directionSq]
    rfl
  refine ⟨h.fullSq_eq hM, ?_, ?_⟩
  · simp only [Iterate.turned, nextCross, stepped, nextDirection, LinearEquiv.coe_coe, map_add,
      map_smul, LinearEquiv.apply_symm_apply, inner_add_right, real_inner_smul_right]
    rw [hstep, hcross, zero_add]
  · have hsq : ⟪it.direction, M it.direction⟫ = it.directionSq := h.directionSq.symm
    simp only [Iterate.turned, nextDirectionSq, stepped, nextDirection, LinearEquiv.coe_coe,
      map_add, map_smul, LinearEquiv.apply_symm_apply, inner_add_left, inner_add_right,
      real_inner_smul_left, real_inner_smul_right]
    rw [hself, hdir, hz, hsq]
    linear_combination hβ

end

end Iterate

namespace Subproblem

open Iterate

section

variable {E : Type} [NormedAddCommGroup E] [InnerProductSpace ℝ E] {A : E →ₗ[ℝ] E}
  {M : E ≃ₗ[ℝ] E} {Q : Subproblem E} {k : ℕ} {it : Iterate ℝ E} {q t u : ℝ} {x : E}
  {f : Figures ℝ} {reason : Reason}

theorem PreconditionsBy.apply_eq {r z : E} (h : Q.PreconditionsBy M.symm)
    (hz : Q.Preconditions r z) : M z = r := by
  rw [h _ _ hz, LinearEquiv.coe_coe, M.apply_symm_apply]

theorem PreconditionsBy.inner_opening {z : E} (h : Q.PreconditionsBy M.symm) (hz : Q.Opens z) :
    ⟪Q.rhs, z⟫ = ⟪z, M z⟫ := by
  rw [h.apply_eq (Q.opens_le _ hz), real_inner_comm]

theorem Reaches.tracks (h : Q.Reaches k it q) (hn : Q.norm = .preconditioned)
    (hA : A.IsSymmetric) (hM : (M : E →ₗ[ℝ] E).IsSymmetric) (hQ : Q.ActsBy A)
    (hQ' : Q.PreconditionsBy M.symm) : it.Tracks (M : E →ₗ[ℝ] E) := by
  induction h with
  | first hz =>
    have := hQ'.apply_eq (Q.opens_le _ hz)
    constructor <;> simp [opening, hn, this, real_inner_comm]
  | @next k it q z w pass _ hz prev _ _ _ _ ih =>
    rw [hQ' _ _ hz, hn]
    exact ih.turned (pass.explores hA hM.toLinearMap_symm hQ hQ') hM pass.curvature_pos.ne' prev w

theorem Rests.reports_preconditioned {v : ℝ} (h : Q.Rests reason x v) (hf : f.stepNorm = v)
    (hn : Q.norm = .preconditioned) (hA : A.IsSymmetric)
    (hM : (M : E →ₗ[ℝ] E).IsSymmetric) (hQ : Q.ActsBy A) (hQ' : Q.PreconditionsBy M.symm) :
    Q.Reports (M : E →ₗ[ℝ] E) reason x f := by
  refine h.reports hf hM (fun z w hz => ?_) fun _ _ _ pass => pass.tracks hn hA hM hQ hQ'
  simp only [opening, hn]
  exact hQ'.inner_opening hz

theorem Reaches.rz_pos (h : Q.Reaches k it q) (hpos : ∀ x ≠ 0, 0 < ⟪x, M x⟫)
    (hQ' : Q.PreconditionsBy M.symm) : 0 < it.rz := by
  cases h with
  | @first z w hz _ _ curved =>
    have hne : z ≠ 0 := by
      rintro rfl
      simp at curved
    have := hpos z hne
    rwa [hQ'.apply_eq (Q.opens_le _ hz), real_inner_comm] at this
  | next _ _ _ _ pos => exact pos

theorem Reaches.sq_lt (h : Q.Reaches k it q) (hn : Q.norm = .preconditioned)
    (tracks : it.Tracks (M : E →ₗ[ℝ] E)) (hM : (M : E →ₗ[ℝ] E).IsSymmetric) (hrz : 0 < it.rz)
    (ht : 0 ≤ t) (htu : t < u) :
    ⟪it.step + t • it.direction, M (it.step + t • it.direction)⟫ <
      ⟪it.step + u • it.direction, M (it.step + u • it.direction)⟫ := by
  obtain ⟨-, hc, -, hd⟩ := h.tracked_nonneg hn
  have hcross : t * it.cross ≤ u * it.cross := mul_le_mul_of_nonneg_right htu.le hc
  have hsq : t * t * it.directionSq < u * u * it.directionSq :=
    mul_lt_mul_of_pos_right (mul_self_lt_mul_self ht htu) (hd hrz)
  have hline (τ : ℝ) := tracks.along hM τ
  simp only [LinearEquiv.coe_coe] at hline
  rw [hline, hline]
  linarith

theorem Reaches.nextStep_sq_lt (h : Q.Reaches k it q) (hn : Q.norm = .preconditioned)
    (tracks : it.Tracks (M : E →ₗ[ℝ] E)) (hM : (M : E →ₗ[ℝ] E).IsSymmetric) (hrz : 0 < it.rz) :
    ⟪it.step, M it.step⟫ < ⟪it.nextStep, M it.nextStep⟫ := by
  have := h.sq_lt hn tracks hM hrz le_rfl (div_pos hrz h.curvature_pos)
  rwa [zero_smul, add_zero] at this

/-- The gradient is followed only if it vanishes. -/
theorem FallsBack.reports_of_rhs_eq_zero {i : ℕ} (h : Q.FallsBack i x f)
    (hb : 0 < Q.radius → Q.rhs = 0) (hreason : reason ≠ .constrainedStep) :
    Q.Reports (M : E →ₗ[ℝ] E) reason x f := by
  cases h with
  | stays unconstrained =>
    exact ⟨by simp, fun hpos => absurd unconstrained hpos.ne', fun h => absurd h hreason⟩
  | falls constrained =>
    have hnorm : Q.gradientNorm = 0 := by
      simp [gradientNorm, hb constrained, mul_self_nonneg]
    refine ⟨?_, fun _ => ?_, fun h => absurd h hreason⟩
    · simp [hnorm, hb constrained]
    · exact hnorm.trans_le constrained.le

theorem Ends.reports (h : Q.Ends k reason x f) (hn : Q.norm = .preconditioned)
    (hA : A.IsSymmetric) (hM : (M : E →ₗ[ℝ] E).IsSymmetric) (hpos : ∀ x ≠ 0, 0 < ⟪x, M x⟫)
    (hQ : Q.ActsBy A) (hQ' : Q.PreconditionsBy M.symm) :
    Q.Reports (M : E →ₗ[ℝ] E) reason x f := by
  obtain rests | ⟨uncut, i, z, w, falls, hz, refused⟩ := h.rests_or_fallsBack
  · exact rests.reports_preconditioned rfl hn hA hM hQ hQ'
  · refine falls.reports_of_rhs_eq_zero (fun hr => ?_) uncut
    have hle : ⟪z, M z⟫ ≤ 0 := by
      rw [← hQ'.inner_opening hz]
      obtain neg | short := refused
      · exact neg.le
      · have hle := short hr
        simpa only [opening, hn] using hle
    have hz0 : z = 0 := by
      by_contra hne
      exact (hpos z hne).not_ge hle
    rw [← hQ'.apply_eq (Q.opens_le _ hz), hz0, map_zero]

end

end Subproblem

section

variable {n : ℕ} {H P C : Type} [ActsOn (List Exact) H] [ActsOn (List Exact) P]
  [ConvergenceTest Exact C]

/-- The tracked numbers of a pass are the products under `M` of its step `d` and its direction
`p`. -/
structure Iterate.Measures (M : RealVector n ≃ₗ[ℝ] RealVector n)
    (it : Iterate Exact (List Exact)) (d p : RealVector n) : Prop where
  step : it.step = entries d
  direction : it.direction = entries p
  stepSq : it.stepSq = .real ⟪d, M d⟫
  cross : it.cross = .real ⟪d, M p⟫
  directionSq : it.directionSq = .real ⟪p, M p⟫

theorem Iterate.Tracks.measures {M : RealVector n ≃ₗ[ℝ] RealVector n}
    {it : Iterate ℝ (RealVector n)} (h : it.Tracks (M : RealVector n →ₗ[ℝ] RealVector n)) :
    it.lift.Measures M it.step it.direction where
  step := rfl
  direction := rfl
  stepSq := congrArg Exact.real h.stepSq
  cross := congrArg Exact.real h.cross
  directionSq := congrArg Exact.real h.directionSq

/-- In exact arithmetic, under the preconditioned norm and with the inverse of `M` as the
preconditioner, the tracked numbers are the products under `M` in every pass. The norm of the step
grows all along the direction and so with every full step, and the reported norm is that of the
returned step. It is at most the radius if there is one, and equal to it if the step was cut
off. -/
theorem solve_tracks_preconditioned_norm {A : RealVector n →ₗ[ℝ] RealVector n}
    {M : RealVector n ≃ₗ[ℝ] RealVector n} {solver : Solver Exact}
    {cs : Collaborators (Euclidean Exact) H P C} {b : RealVector n} {m : ℕ}
    (hn : solver.settings.directionNorm = .preconditioned) (hr : 0 ≤ solver.settings.radius)
    (hA : A.IsSymmetric) (hM : (M : RealVector n →ₗ[ℝ] RealVector n).IsSymmetric)
    (hpos : ∀ x ≠ 0, 0 < ⟪x, M x⟫) (hH : Computes A cs.operator)
    (hP : Computes M.symm cs.preconditioner) :
    (∀ k it run, ReachesPass solver.settings (entries b) m cs.begin k it run →
      ∃ d p : RealVector n, it.Measures M d p ∧
        (∀ t u : ℝ, 0 ≤ t → t < u → ⟪d + t • p, M (d + t • p)⟫ < ⟪d + u • p, M (d + u • p)⟫) ∧
        ∀ next run', FullStep solver.settings it run next run' →
          ∃ d' : RealVector n, next.step = entries d' ∧ ⟪d, M d⟫ < ⟪d', M d'⟫) ∧
    ∀ solution, (solver.solve cs (entries b) m).result = .ok solution →
      ∃ x : RealVector n, solution.step = entries x ∧ solution.stepNorm = .real √⟪x, M x⟫ ∧
        (0 < solver.settings.radius → solution.stepNorm ≤ solver.settings.radius) ∧
        (solution.reason = .constrainedStep → solution.stepNorm = solver.settings.radius) := by
  constructor
  · intro k it run pass
    have fits : (solver.settings.subproblem b m (fun x w => w = A x)
        fun x z => z = M.symm x).Fits solver.settings :=
      Settings.subproblem_fits_of_nonneg hr
    have obeys : cs.begin.Obeys (fun x w => w = A x) fun x z => z = M.symm x :=
      ⟨hH.answers, hP.answers⟩
    obtain ⟨it, q, reach, rfl, hrun, hf⟩ := pass.lift fits obeys rfl
    have tracks := reach.tracks hn hA hM (fun _ _ hw => hw) fun _ _ hz => hz
    have hrz := reach.rz_pos hpos fun _ _ hz => hz
    refine ⟨it.step, it.direction, tracks.measures, fun t u ht htu => ?_, fun next run' full => ?_⟩
    · exact reach.sq_lt hn tracks hM hrz ht htu
    · obtain ⟨-, z, -, rfl, -⟩ := full.lift fits reach hrun hf
      exact ⟨it.nextStep, rfl, reach.nextStep_sq_lt hn tracks hM hrz⟩
  · intro solution h
    obtain ⟨fits, x, f, ends, hx, hnorm, -⟩ :=
      Solver.solve_lift hH.answers hP.answers h
    have reports := ends.reports hn hA hM hpos (fun _ _ hw => hw) fun _ _ hz => hz
    refine ⟨x, hx, hnorm.trans (congrArg Exact.real reports.norm), ?_, ?_⟩
    · rw [hnorm, fits.radius]
      exact reports.within
    · intro hreason
      rw [hnorm, fits.radius, reports.onBoundary hreason]

/-- The matrix `2 I` with its inverse as the preconditioner of the identity. -/
theorem solve_tracks_preconditioned_norm_scaling :
    (∀ k it run, ReachesPass (Solver.plain 1 .preconditioned).settings
        (entries (!₂[3, 4] : RealVector 2)) 5 (Collaborators.scaling 1 2⁻¹).begin k it run →
      ∃ d p : RealVector 2, it.Measures (.smulOfNeZero ℝ _ 2 two_ne_zero) d p) ∧
    ∃ solution, ((Solver.plain 1 .preconditioned).solve (.scaling 1 2⁻¹)
        (entries !₂[3, 4]) 5).result = .ok solution ∧
      ∃ x : RealVector 2, solution.step = entries x ∧
        solution.stepNorm = .real √⟪x, (2 : ℝ) • x⟫ ∧ solution.stepNorm ≤ .real 1 := by
  have hpos (x : RealVector 2) (hx : x ≠ 0) : 0 < ⟪x, (2 : ℝ) • x⟫ := by
    rw [real_inner_smul_right]
    exact mul_pos two_pos (real_inner_self_pos.mpr hx)
  have hn : (Solver.plain 1 .preconditioned).settings.directionNorm = .preconditioned := rfl
  have hr : 0 ≤ (Solver.plain 1 .preconditioned).settings.radius := Exact.real_le.mpr zero_le_one
  have hH : Computes ((1 : ℝ) • LinearMap.id : RealVector 2 →ₗ[ℝ] RealVector 2)
      (Collaborators.scaling 1 2⁻¹).operator := (Rule.serves_scale 1).computes
  have hP : Computes (LinearEquiv.smulOfNeZero ℝ (RealVector 2) 2 two_ne_zero).symm
      (Collaborators.scaling 1 2⁻¹).preconditioner := (Rule.serves_scale 2⁻¹).computes
  obtain ⟨passes, solved⟩ := solve_tracks_preconditioned_norm (b := !₂[3, 4]) (m := 5) hn hr
    (isSymmetric_smul_id 1) (isSymmetric_smul_id 2) hpos hH hP
  obtain ⟨solution, h⟩ :=
    Solver.solve_scaling zero_le_one .preconditioned 1 2⁻¹ (!₂[3, 4] : RealVector 2) 5
  obtain ⟨x, hx, hnorm, hle, -⟩ := solved solution h
  refine ⟨fun k it run pass => ?_, solution, h, x, hx, hnorm, hle (Exact.real_lt.mpr zero_lt_one)⟩
  obtain ⟨d, p, measures, -⟩ := passes k it run pass
  exact ⟨d, p, measures⟩

end

end TrustRegion
