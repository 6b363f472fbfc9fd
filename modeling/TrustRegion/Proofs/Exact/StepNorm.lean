import TrustRegion.Proofs.Exact.Scaling

/-! The reported norm of a step is its norm, and the step stays within the radius. -/
namespace TrustRegion

open scoped RealInnerProductSpace

namespace Subproblem

open Iterate

section

variable {E : Type} [NormedAddCommGroup E] [InnerProductSpace ℝ E] {Q : Subproblem E}
  {M : E →ₗ[ℝ] E} {k : ℕ} {it : Iterate ℝ E} {q : ℝ} {x : E} {f : Figures ℝ} {reason : Reason}

/-- The figures report the norm of the step under `M`, and that norm is within the radius. -/
structure Reports (Q : Subproblem E) (M : E →ₗ[ℝ] E) (reason : Reason) (x : E) (f : Figures ℝ) :
    Prop where
  norm : f.stepNorm = √⟪x, M x⟫
  within : 0 < Q.radius → f.stepNorm ≤ Q.radius
  onBoundary : reason = .constrainedStep → f.stepNorm = Q.radius

theorem reports_of_sq_eq (hr : 0 ≤ Q.radius) (hf : f.stepNorm = Q.radius)
    (hx : ⟪x, M x⟫ = Q.radius * Q.radius) : Q.Reports M reason x f where
  norm := by rw [hf, hx, Real.sqrt_mul_self hr]
  within _ := hf.le
  onBoundary _ := hf

theorem Reaches.reports_boundary (pass : Q.Reaches k it q) (tracks : it.Tracks M)
    (hM : M.IsSymmetric) (hr : 0 < Q.radius) (crosses : Q.radius * Q.radius ≤ it.fullSq)
    (hf : f.stepNorm = Q.radius) :
    Q.Reports M reason (it.step + it.boundaryLength Q.radius • it.direction) f := by
  refine reports_of_sq_eq hr.le hf ?_
  rw [tracks.along hM]
  exact boundaryLength_root (pass.directionSq_pos hr crosses) (pass.stepSq_lt hr).le

theorem Reaches.reports_inside (pass : Q.Reaches k it q) (tracks : it.Tracks M)
    (hM : M.IsSymmetric) (inside : Q.Inside it) (hf : f.stepNorm = √(it.nextStepSq Q.norm))
    (hreason : reason ≠ .constrainedStep) : Q.Reports M reason it.nextStep f where
  norm := by rw [hf, pass.nextStepSq_eq, tracks.fullSq_eq hM]
  within hr := by
    rw [hf, pass.nextStepSq_eq]
    exact Real.sqrt_le_iff.mpr ⟨hr.le, by rw [sq]; exact (inside hr).le⟩
  onBoundary h := absurd h hreason

theorem reports_leaving {z : E} {τ d : ℝ} (hd : d = ⟪z, M z⟫) (hpos : 0 < d) (hr : 0 ≤ Q.radius)
    (hτ : τ = √(Q.radius * Q.radius / d)) (hf : f.stepNorm = Q.radius) :
    Q.Reports M reason (τ • z) f := by
  refine reports_of_sq_eq hr hf ?_
  have hsq : τ * τ = Q.radius * Q.radius / d := by
    rw [hτ, Real.mul_self_sqrt (div_nonneg (mul_self_nonneg _) hpos.le)]
  rw [map_smul, real_inner_smul_left, real_inner_smul_right, ← hd, ← mul_assoc, hsq,
    div_mul_cancel₀ _ hpos.ne']

/-- Where a solve leaves the step unless it falls back to the gradient, and the norm that it
reports. -/
inductive Rests (Q : Subproblem E) : Reason → E → ℝ → Prop where
  | leaves {z w : E} (hz : Q.Opens z) (constrained : 0 < Q.radius)
      (long : 0 < (opening Q.norm Q.rhs z w).directionSq) :
      Rests Q .negativeCurvature
        (√(Q.radius * Q.radius / (opening Q.norm Q.rhs z w).directionSq) • z) Q.radius
  | boundary {k : ℕ} {it : Iterate ℝ E} {q : ℝ} (pass : Q.Reaches k it q)
      (constrained : 0 < Q.radius) (crosses : Q.radius * Q.radius ≤ it.fullSq) :
      Rests Q .constrainedStep (it.step + it.boundaryLength Q.radius • it.direction) Q.radius
  | inside {k : ℕ} {it : Iterate ℝ E} {q : ℝ} {reason : Reason} (pass : Q.Reaches k it q)
      (inside : Q.Inside it) (uncut : reason ≠ .constrainedStep) :
      Rests Q reason it.nextStep √(it.nextStepSq Q.norm)

theorem Ends.rests_or_fallsBack (h : Q.Ends k reason x f) :
    Q.Rests reason x f.stepNorm ∨
      reason ≠ .constrainedStep ∧ ∃ i z w, Q.FallsBack i x f ∧ Q.Opens z ∧
        (⟪Q.rhs, z⟫ < 0 ∨ (0 < Q.radius → (opening Q.norm Q.rhs z w).directionSq ≤ 0)) := by
  cases h with
  | @indefinite z _ _ hz neg falls =>
    exact .inr ⟨Reason.noConfusion, 0, z, z, falls, hz, .inl neg⟩
  | leaves hz _ _ _ constrained long length =>
    subst length
    exact .inl (.leaves hz constrained long)
  | @fallsBack z w _ _ hz _ _ _ short falls =>
    exact .inr ⟨Reason.noConfusion, 1, z, w, falls, hz, .inr short⟩
  | boundary pass constrained crosses length =>
    subst length
    exact .inl (.boundary pass constrained crosses)
  | inside pass inside _ stops => exact .inl (.inside pass inside stops.ne_constrainedStep)

/-- Where the tracked numbers are true, so is the norm that is reported. -/
theorem Rests.reports {v : ℝ} (h : Q.Rests reason x v) (hf : f.stepNorm = v) (hM : M.IsSymmetric)
    (opens : ∀ z w, Q.Opens z → (opening Q.norm Q.rhs z w).directionSq = ⟪z, M z⟫)
    (tracks : ∀ k it q, Q.Reaches k it q → it.Tracks M) : Q.Reports M reason x f := by
  cases h with
  | leaves hz constrained long =>
    exact reports_leaving (opens _ _ hz) long constrained.le rfl hf
  | boundary pass constrained crosses =>
    exact pass.reports_boundary (tracks _ _ _ pass) hM constrained crosses hf
  | inside pass inside uncut => exact pass.reports_inside (tracks _ _ _ pass) hM inside hf uncut

theorem gradientNorm_eq (hr : 0 ≤ Q.radius) :
    Q.gradientNorm = ‖Q.gradientLength • Q.rhs‖ ∧ Q.gradientNorm ≤ Q.radius := by
  unfold gradientNorm gradientLength
  split
  · next hin =>
    rw [one_smul, norm_eq_sqrt_real_inner]
    exact ⟨rfl, Real.sqrt_le_iff.mpr ⟨hr, by rwa [sq]⟩⟩
  · next hout =>
    have hpos : 0 < ⟪Q.rhs, Q.rhs⟫ := (mul_self_nonneg _).trans_lt (lt_of_not_ge hout)
    refine ⟨?_, le_rfl⟩
    rw [norm_smul, Real.norm_of_nonneg (Real.sqrt_nonneg _), norm_eq_sqrt_real_inner,
      ← Real.sqrt_mul (div_nonneg (mul_self_nonneg _) hpos.le), div_mul_cancel₀ _ hpos.ne',
      Real.sqrt_mul_self hr]

theorem FallsBack.reports {i : ℕ} (h : Q.FallsBack i x f) (hr : 0 ≤ Q.radius)
    (hreason : reason ≠ .constrainedStep) : Q.Reports LinearMap.id reason x f := by
  cases h with
  | stays unconstrained =>
    exact ⟨by simp, fun hpos => absurd unconstrained hpos.ne', fun h => absurd h hreason⟩
  | falls =>
    obtain ⟨hnorm, hle⟩ := Q.gradientNorm_eq hr
    exact ⟨hnorm.trans (norm_eq_sqrt_real_inner _), fun _ => hle, fun h => absurd h hreason⟩

theorem Ends.reports_id (h : Q.Ends k reason x f) (hn : Q.norm = .unpreconditioned)
    (hr : 0 ≤ Q.radius) : Q.Reports LinearMap.id reason x f := by
  obtain rests | ⟨uncut, i, z, w, falls, -⟩ := h.rests_or_fallsBack
  · exact rests.reports rfl .id (fun z w _ => by simp [opening, hn]) fun _ _ _ pass =>
      pass.tracks_id hn
  · exact falls.reports hr uncut

end

end Subproblem

section

variable {n : ℕ} {H P C : Type} [ActsOn (List Exact) H] [ActsOn (List Exact) P]
  [ConvergenceTest Exact C]

/-- In exact arithmetic and under the norm of the space, whatever the collaborators answer, the
reported norm is that of the returned step. It is at most the radius if there is one, and equal to
it if the step was cut off. -/
theorem solve_stepNorm_eq_norm {solver : Solver Exact}
    {cs : Collaborators (Euclidean Exact) H P C} {b : RealVector n} {m : ℕ}
    {solution : Solution Exact (List Exact)}
    (hn : solver.settings.directionNorm = .unpreconditioned)
    (hH : StaysReal n cs.operator) (hP : StaysReal n cs.preconditioner)
    (h : (solver.solve cs (entries b) m).result = .ok solution) :
    ∃ x : RealVector n, solution.step = entries x ∧ solution.stepNorm = .real ‖x‖ ∧
      (0 < solver.settings.radius → solution.stepNorm ≤ solver.settings.radius) ∧
      (solution.reason = .constrainedStep → solution.stepNorm = solver.settings.radius) := by
  obtain ⟨fits, x, f, ends, hx, hnorm, -⟩ := Solver.solve_lift hH.answers hP.answers h
  have reports := ends.reports_id hn fits.nonneg
  refine ⟨x, hx, ?_, ?_, ?_⟩
  · rw [hnorm, reports.norm, norm_eq_sqrt_real_inner]
    rfl
  · rw [hnorm, fits.radius]
    exact reports.within
  · intro hreason
    rw [hnorm, fits.radius, reports.onBoundary hreason]

/-- A right-hand side of norm 5 within the radius 1. -/
theorem solve_stepNorm_eq_norm_scaling :
    ∃ solution, ((Solver.plain 1 .unpreconditioned).solve (.scaling 1 1)
        (entries !₂[3, 4]) 5).result = .ok solution ∧
      ∃ x : RealVector 2, solution.step = entries x ∧ solution.stepNorm = .real ‖x‖ ∧
        solution.stepNorm ≤ .real 1 ∧
        (solution.reason = .constrainedStep → solution.stepNorm = .real 1) := by
  obtain ⟨solution, h⟩ :=
    Solver.solve_scaling zero_le_one .unpreconditioned 1 1 (!₂[3, 4] : RealVector 2) 5
  obtain ⟨x, hx, hnorm, hle, heq⟩ := solve_stepNorm_eq_norm rfl
    (Rule.serves_scale 1).computes.staysReal (Rule.serves_scale 1).computes.staysReal h
  exact ⟨solution, h, x, hx, hnorm, hle (Exact.real_lt.mpr zero_lt_one), heq⟩

end

end TrustRegion
