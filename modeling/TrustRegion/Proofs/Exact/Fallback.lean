import TrustRegion.Proofs.Departure
import TrustRegion.Proofs.Exact.StepNorm

/-! The gradient step that a solve falls back to: it is held within the radius by the norm of the
space, also where the norm of the preconditioner is tracked. -/
namespace TrustRegion

open RunM

section Weights

variable {n : ℕ} {w : Fin n → ℝ} {c : ℝ}

theorem sqrt_sum_weights_le (hw : ∀ i, w i ≤ c) (x : RealVector n) :
    √(∑ i, w i * x i ^ 2) ≤ √c * ‖x‖ := by
  have hsum : ∑ i, w i * x i ^ 2 ≤ c * ‖x‖ ^ 2 := by
    calc
      ∑ i, w i * x i ^ 2 ≤ ∑ i, c * x i ^ 2 :=
        Finset.sum_le_sum fun i _ => mul_le_mul_of_nonneg_right (hw i) (sq_nonneg _)
      _ = c * ‖x‖ ^ 2 := by rw [← Finset.mul_sum, EuclideanSpace.real_norm_sq_eq]
  calc
    √(∑ i, w i * x i ^ 2) ≤ √(c * ‖x‖ ^ 2) := Real.sqrt_le_sqrt hsum
    _ = √c * ‖x‖ := by rw [Real.sqrt_mul' _ (sq_nonneg _), Real.sqrt_sq (norm_nonneg _)]

end Weights

section Phases

variable {n : ℕ} {H P C : Type} [ActsOn (List Exact) H] [ActsOn (List Exact) P]
  {s : Settings Exact} {Q : Subproblem (RealVector n)}
  {run run' : Run Exact (Euclidean Exact) H P C}

omit [ActsOn (List Exact) H] in
theorem start_eq_ok {x : RealVector n} {b : Start Exact (List Exact)}
    (h : start (entries x) run = .ok b run') :
    b.zero = entries (0 : RealVector n) ∧ b.rr = .real (inner ℝ x x) := by
  simp only [start, bind_eq_ok, zerosLike_entries, copy_entries, dot_entries, exists_ok_eq,
    Exact.isFinite_real, ↓reduceIte] at h
  obtain ⟨z, run₁, -, rz, run₂, -, ⟨⟩⟩ := h
  exact ⟨rfl, rfl⟩

omit [ActsOn (List Exact) P] in
/-- Whatever the operator answers, the gradient step is a multiple of the right-hand side, and its
norm is the one that is reported. -/
theorem gradientStep_eq_ok {scratch step : List Exact} (fits : Q.Fits s) (hr : 0 < Q.radius)
    (h : gradientStep s (entries Q.rhs) (.real (inner ℝ Q.rhs Q.rhs)) (entries (0 : RealVector n))
      scratch run = .ok step run') :
    step = entries (Q.gradientLength • Q.rhs) ∧ run'.figures.stepNorm = .real Q.gradientNorm := by
  unfold gradientStep at h
  rw [fits.radius, fits.radiusSq, if_neg (by simp [hr.ne'])] at h
  simp only [bind_eq_ok, setStepNorm_apply, exists_ok_eq, Q.gradientLength_lift,
    Q.gradientNorm_lift, axpy_entries, zero_add, mapObjective_apply, countIteration_apply] at h
  obtain ⟨product, run₁, operates, difference, run₂, adds, value, run₃, multiplies, ⟨⟩⟩ := h
  refine ⟨rfl, ?_⟩
  have h₁ : run₁.figures.stepNorm = .real Q.gradientNorm := by
    rw [Run.eq_of_ofWritten operates]
    rfl
  have h₂ : run₂.figures = run₁.figures := by
    rw [Run.eq_of_ofWritten adds]
    rfl
  have h₃ : run₃.figures = run₂.figures := by
    rw [Run.eq_of_ofAnswer multiplies]
    rfl
  show run₃.figures.stepNorm = .real Q.gradientNorm
  rw [h₃, h₂, h₁]

end Phases

section

variable {n : ℕ} {H P C : Type} [ActsOn (List Exact) H] [ActsOn (List Exact) P]
  [ConvergenceTest Exact C]

/-- In exact arithmetic a solve that falls back to the gradient, for whatever the operator and the
preconditioner answer, returns a step within the radius by the norm of the space, which it reports.
By a norm with weights that step is as much longer as the largest of them allows. -/
theorem solve_fallback_norm_le {solver : Solver Exact}
    {cs : Collaborators (Euclidean Exact) H P C} {b : RealVector n} {m : ℕ}
    {solution : Solution Exact (List Exact)} {ρ : ℝ} (hρ : 0 < ρ)
    (hr : solver.settings.radius = .real ρ)
    (falls : TakesGradient solver.settings (entries b) cs.begin)
    (h : (solver.solve cs (entries b) m).result = .ok solution) :
    ∃ (x : RealVector n) (t : ℝ), solution.step = entries x ∧ x = t • b ∧
      solution.stepNorm = .real ‖x‖ ∧ ‖x‖ ≤ ρ ∧
      ∀ (w : Fin n → ℝ) (c : ℝ), (∀ i, w i ≤ c) → √(∑ i, w i * x i ^ 2) ≤ √c * ρ := by
  obtain ⟨hv, k, stop, run, ends, hstep, -, hnorm, -⟩ := Solver.solve_eq_ok h
  let Q := solver.settings.subproblem b m (fun _ _ => True) fun _ _ => True
  have fits : Q.Fits solver.settings := Settings.subproblem_fits hv
  obtain rfl : ρ = Q.radius := Exact.real.inj (hr.symm.trans fits.radius)
  obtain ⟨start₀, run₁, reason, scratch, run₂, starts, heq⟩ := falls.iterate_eq m
  obtain ⟨hzero, hrr⟩ := start_eq_ok starts
  have go := heq.symm.trans ends.iterate_eq
  rw [hzero, hrr] at go
  obtain ⟨step, run₃, gradient, ⟨⟩⟩ := bind_eq_ok.mp go
  obtain ⟨hx, hf⟩ := gradientStep_eq_ok fits hρ gradient
  obtain ⟨hlength, hle⟩ := Q.gradientNorm_eq hρ.le
  have hin : ‖Q.gradientLength • b‖ ≤ Q.radius := hlength.symm.trans_le hle
  refine ⟨Q.gradientLength • b, Q.gradientLength, hstep.trans hx, rfl, ?_, hin, fun w c hw => ?_⟩
  · rw [hnorm, hf, hlength]
    rfl
  · exact (sqrt_sum_weights_le hw _).trans (mul_le_mul_of_nonneg_left hin (Real.sqrt_nonneg _))

theorem takesGradient_scaling {n : ℕ} {p : ℝ} (hp : p < 0) {b : RealVector n} (hb : b ≠ 0) (h ρ : ℝ)
    (norm : DirectionNorm) :
    TakesGradient (Solver.plain ρ norm).settings (entries b)
      (Collaborators.scaling h p).begin := by
  have serves : (Collaborators.scaling h p).begin.Serves (fun x : RealVector n => h • x)
      fun x => p • x := ⟨Rule.serves_scale h, Rule.serves_scale p⟩
  obtain ⟨start₀, run, starts, hstart, -⟩ := start_meets (x := b) serves
  refine .preconditioner starts (.inr ?_)
  rw [hstart]
  have hrz : inner ℝ b (p • b) < 0 := by
    rw [real_inner_smul_right]
    exact mul_neg_of_neg_of_pos hp (real_inner_self_pos.mpr hb)
  exact Exact.real_lt.mpr hrz

end

end TrustRegion
