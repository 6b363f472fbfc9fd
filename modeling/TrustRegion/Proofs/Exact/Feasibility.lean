import TrustRegion.Proofs.Exact.Recurrence
import TrustRegion.Proofs.Exact.Signs
import TrustRegion.Space.Weighted

/-! The region under the preconditioned norm: what holds a step within the radius at each exit of a
solve, also where the operator answers with what are no numbers. -/
namespace TrustRegion

open scoped RealInnerProductSpace
open RunM

noncomputable section

section Weights

variable {n : ℕ} {w : Fin n → ℝ}

/-- The multiplication by weights other than zero, with that by their inverses as its inverse. -/
def weighting (w : Fin n → ℝ) (hw : ∀ i, w i ≠ 0) : RealVector n ≃ₗ[ℝ] RealVector n where
  toFun x := multiply (diag w) x
  invFun x := multiply (diag fun i => 1 / w i) x
  map_add' x y := by
    ext i
    simp [multiply_diag, mul_add]
  map_smul' c x := by
    ext i
    simp [multiply_diag, mul_left_comm]
  left_inv x := by
    ext i
    simp [multiply_diag, hw i]
  right_inv x := by
    ext i
    simp [multiply_diag, hw i]

theorem inner_weighting (hw : ∀ i, w i ≠ 0) (x y : RealVector n) :
    ⟪x, weighting w hw y⟫ = ∑ i, w i * (x i * y i) := by
  simp only [weighting, LinearEquiv.coe_mk, LinearMap.coe_mk, AddHom.coe_mk, multiply_diag,
    PiLp.inner_apply, RCLike.inner_apply, conj_trivial]
  exact Finset.sum_congr rfl fun i _ => by ring

theorem inner_weighting_self (hw : ∀ i, w i ≠ 0) (x : RealVector n) :
    ⟪x, weighting w hw x⟫ = ∑ i, w i * x i ^ 2 := by
  rw [inner_weighting]
  exact Finset.sum_congr rfl fun i _ => by rw [sq]

theorem isSymmetric_weighting (hw : ∀ i, w i ≠ 0) :
    (weighting w hw : RealVector n →ₗ[ℝ] RealVector n).IsSymmetric := by
  intro x y
  simp only [LinearEquiv.coe_coe]
  rw [real_inner_comm, inner_weighting, inner_weighting]
  exact Finset.sum_congr rfl fun i _ => by rw [mul_comm (y i)]

end Weights

section Exits

variable {n : ℕ} {H P C : Type} [ActsOn (List Exact) H] [ActsOn (List Exact) P]
  [ConvergenceTest Exact C] {s : Settings Exact} {Q : Subproblem (RealVector n)} {strict : Prop}
  {m k : ℕ} {run₀ run run' : Run Exact (Euclidean Exact) H P C} {stop : Stop (List Exact)}

theorem first_rests {b : Start Exact (List Exact)} {reason : Reason} {step : List Exact}
    (fits : Q.Fits s) (hr : 0 < Q.radius) (begins : run₀.Commences strict Q)
    (direct : ¬ TakesGradient s (entries Q.rhs) run₀)
    (starts : start (entries Q.rhs) run₀ = .ok b run) (nonneg : ¬ b.rz < 0)
    (stops : first s (entries Q.rhs) b run = .ok (.stopped reason step) run') :
    ∃ x v, Q.Rests reason x v ∧ step = entries x ∧ run'.figures.stepNorm = .real v := by
  have long := long_of_not_takesGradient direct starts
  obtain ⟨z, hz, rfl, hrun, hf⟩ := start_lift starts begins
  rw [first_eq] at stops
  obtain ⟨p, mid, probes, stops⟩ := bind_eq_ok.mp stops
  obtain ⟨-, answers, -, hf₁⟩ := probe_heeds probes hrun (hf.trans begins.figures)
  by_cases finite : Scalar.isFinite p.curvature = true
  · obtain ⟨w, -, rfl⟩ := answers finite
    have departs := stops
    rw [depart, if_neg (by simp)] at departs
    obtain ⟨d, mid', measures, departs⟩ := bind_eq_ok.mp departs
    have flat : ⟪z, w⟫ ≤ 0 := by
      by_contra curved
      rw [if_neg (by simpa using curved)] at departs
      cases departs
    have hd := long rfl nonneg (fits.isConstrained.mpr hr) _ _ _ _ probes measures rfl flat
    obtain ⟨rfl, -, hf₂⟩ := measure_lift (w := w) fits measures
    obtain ⟨hphase, hfig⟩ := depart_lift fits hr flat measures hd (hf₂.trans hf₁) stops
    cases hphase
    exact ⟨_, _, .leaves hz hr hd, rfl, congrArg Figures.stepNorm hfig⟩
  · exact absurd (.operator starts rfl nonneg probes (by simpa using finite)) direct

/-- Whatever the operator answers, a solve that does not fall back to the gradient ends on the
boundary, or inside the region after a full step. -/
theorem Ends.rests (ends : Ends s (entries Q.rhs) m run₀ k stop run) (fits : Q.Fits s)
    (hcap : Q.cap = min m n) (hr : 0 < Q.radius) (begins : run₀.Commences strict Q)
    (direct : ¬ TakesGradient s (entries Q.rhs) run₀) :
    ∃ x v, Q.Rests stop.reason x v ∧ stop.step = entries x ∧ run.figures.stepNorm = .real v := by
  cases ends with
  | badPreconditioner starts infinite =>
    exact absurd (.preconditioner starts (.inl infinite)) direct
  | indefinitePreconditioner starts _ neg =>
    exact absurd (.preconditioner starts (.inr neg)) direct
  | first starts _ nonneg stops => exact first_rests fits hr begins direct starts nonneg stops
  | boundary pass crosses truncates =>
    obtain ⟨it, q, reach, rfl, -, hf⟩ := pass.exists_reaches fits hcap begins
    obtain ⟨constrained, hcross⟩ :=
      (Iterate.crosses_lift fits reach.curvature_pos.ne').mp crosses
    obtain ⟨hstep, hfig⟩ := truncate_lift fits truncates reach constrained hcross hf
    exact ⟨_, _, .boundary reach constrained hcross, hstep, congrArg Figures.stepNorm hfig⟩
  | review pass full stops =>
    obtain ⟨it, q, reach, rfl, hrun, hf⟩ := pass.exists_reaches fits hcap begins
    obtain ⟨inside, z, -, rfl, -, hf₂, hstops⟩ := full.reviewed_lift fits stops reach hrun hf
    exact ⟨_, _, .inside reach inside hstops.ne_constrainedStep, rfl,
      congrArg Figures.stepNorm hf₂⟩
  | limit pass full reviews reached =>
    obtain ⟨it, q, reach, rfl, hrun, hf⟩ := pass.exists_reaches fits hcap begins
    obtain ⟨inside, z, -, rfl, -, hf₂, -⟩ := full.reviewed_lift fits reviews reach hrun hf
    exact ⟨_, _, .inside reach inside Reason.noConfusion, rfl, congrArg Figures.stepNorm hf₂⟩
  | turn pass full reviews _ stops =>
    obtain ⟨it, q, reach, rfl, hrun, hf⟩ := pass.exists_reaches fits hcap begins
    obtain ⟨inside, z, -, rfl, hrun₂, hf₂, prev, -⟩ :=
      full.reviewed_lift fits reviews reach hrun hf
    obtain ⟨hf₃, hstep, -⟩ := turn_lift fits stops hrun₂ prev reach.curvature_pos.ne'
    have uncut := Phase.StaysAt.uncut (yields_turn stops)
    exact ⟨_, _, .inside reach inside uncut, hstep,
      (congrArg Figures.stepNorm hf₃).trans (congrArg Figures.stepNorm hf₂)⟩

end Exits

section

variable {n : ℕ} {H P C : Type} [ActsOn (List Exact) H] [ActsOn (List Exact) P]
  [ConvergenceTest Exact C]

/-- A preconditioner that divides by the weights, and an operator that applies the symmetric `A`
wherever it leaves a vector of real numbers; elsewhere it may leave anything. -/
structure Collaborators.Weighs (cs : Collaborators (Euclidean Exact) H P C)
    (A : RealVector n →ₗ[ℝ] RealVector n) (w : Fin n → ℝ) : Prop where
  symmetric : A.IsSymmetric
  positive : ∀ i, 0 < w i
  operator : Allows False (fun x y => y = A x) cs.operator
  preconditioner : Computes (multiply (diag fun i => 1 / w i)) cs.preconditioner

/-- By which norm, and for which collaborators, a solver holds a solution within the radius `ρ`. -/
structure Solver.HoldsWithin (solver : Solver Exact) (cs : Collaborators (Euclidean Exact) H P C)
    (b : RealVector n) (solution : Solution Exact (List Exact)) (ρ : ℝ) : Prop where
  fallback (falls : TakesGradient solver.settings (entries b) cs.begin) :
    ∃ (x : RealVector n) (t : ℝ), solution.step = entries x ∧ x = t • b ∧
      solution.stepNorm = .real ‖x‖ ∧ ‖x‖ ≤ ρ ∧
      ∀ (w : Fin n → ℝ) (c : ℝ), (∀ i, w i ≤ c) → √(∑ i, w i * x i ^ 2) ≤ √c * ρ
  reported (hP : StaysReal n cs.preconditioner) :
    0 ≤ solution.stepNorm ∧ solution.stepNorm ≤ .real ρ
  tracked {A : RealVector n →ₗ[ℝ] RealVector n} {w : Fin n → ℝ} (weighs : cs.Weighs A w)
    (hn : solver.settings.directionNorm = .preconditioned)
    (direct : ¬ TakesGradient solver.settings (entries b) cs.begin) :
    ∃ x : RealVector n, solution.step = entries x ∧
      solution.stepNorm = .real √(∑ i, w i * x i ^ 2) ∧ √(∑ i, w i * x i ^ 2) ≤ ρ ∧
      (solution.reason = .constrainedStep → √(∑ i, w i * x i ^ 2) = ρ)
  weighted {A : RealVector n →ₗ[ℝ] RealVector n} {w : Fin n → ℝ} (weighs : cs.Weighs A w)
    (hn : solver.settings.directionNorm = .preconditioned) (small : ∀ i, w i ≤ 1) :
    ∃ x : RealVector n, solution.step = entries x ∧ √(∑ i, w i * x i ^ 2) ≤ ρ

variable {solver : Solver Exact} {cs : Collaborators (Euclidean Exact) H P C} {b : RealVector n}
  {m : ℕ} {solution : Solution Exact (List Exact)} {ρ : ℝ}

theorem Solver.solve_rests {strict : Prop} {act pre : RealVector n → RealVector n → Prop}
    (hH : Allows strict act cs.operator) (hP : Answers pre cs.preconditioner) (hρ : 0 < ρ)
    (hr : solver.settings.radius = .real ρ)
    (direct : ¬ TakesGradient solver.settings (entries b) cs.begin)
    (h : (solver.solve cs (entries b) m).result = .ok solution) :
    (solver.settings.subproblem b m act pre).radius = ρ ∧
      ∃ x v, (solver.settings.subproblem b m act pre).Rests solution.reason x v ∧
        solution.step = entries x ∧ solution.stepNorm = .real v := by
  obtain ⟨hv, k, stop, run, ends, hstep, hreason, hnorm, -⟩ := solve_eq_ok h
  let Q := solver.settings.subproblem b m act pre
  have fits : Q.Fits solver.settings := Settings.subproblem_fits hv
  have hradius : Q.radius = ρ := Exact.real.inj (fits.radius.symm.trans hr)
  have heeds : cs.begin.Heeds strict act pre := ⟨hH, hP⟩
  have begins : cs.begin.Commences strict Q := heeds.begins rfl
  obtain ⟨x, v, rests, hx, hf⟩ := ends.rests fits rfl (hradius ▸ hρ) begins direct
  exact ⟨hradius, x, v, hreason ▸ rests, hstep.trans hx, hnorm.trans hf⟩

/-- Without falling back, a solver tracks the norm of the preconditioner and holds the step within
the radius by it. -/
theorem solve_tracked_norm_le {A : RealVector n →ₗ[ℝ] RealVector n} {w : Fin n → ℝ} (hρ : 0 < ρ)
    (hr : solver.settings.radius = .real ρ) (weighs : cs.Weighs A w)
    (hn : solver.settings.directionNorm = .preconditioned)
    (direct : ¬ TakesGradient solver.settings (entries b) cs.begin)
    (h : (solver.solve cs (entries b) m).result = .ok solution) :
    ∃ x : RealVector n, solution.step = entries x ∧
      solution.stepNorm = .real √(∑ i, w i * x i ^ 2) ∧ √(∑ i, w i * x i ^ 2) ≤ ρ ∧
      (solution.reason = .constrainedStep → √(∑ i, w i * x i ^ 2) = ρ) := by
  obtain ⟨hradius, x, v, rests, hx, hnorm⟩ := Solver.solve_rests weighs.operator
    weighs.preconditioner.answers hρ hr direct h
  have hw (i : Fin n) : w i ≠ 0 := (weighs.positive i).ne'
  have reports := rests.reports_preconditioned (M := weighting w hw) (f := ⟨v, 0, 0⟩) rfl hn
    weighs.symmetric (isSymmetric_weighting hw) (fun _ _ hy => hy) fun _ _ hz => hz
  have hv : v = √(∑ i, w i * x i ^ 2) := by
    rw [← inner_weighting_self hw]
    exact reports.norm
  refine ⟨x, hx, hnorm.trans (congrArg Exact.real hv), ?_, fun cut => ?_⟩
  · exact hv.symm.trans_le ((reports.within (hradius ▸ hρ)).trans_eq hradius)
  · exact hv.symm.trans ((reports.onBoundary cut).trans hradius)

/-- In exact arithmetic every solution is held within the radius by some norm. What a solve falls
back to is held by the norm of the space, and every other step by the norm that is tracked, which
is that of the preconditioner wherever the operator answers with a symmetric matrix or with what is
no number. Where no weight is greater than one, the norm of the preconditioner holds all of them. -/
theorem solve_holds_within (hρ : 0 < ρ) (hr : solver.settings.radius = .real ρ)
    (h : (solver.solve cs (entries b) m).result = .ok solution) :
    solver.HoldsWithin cs b solution ρ := by
  constructor
  case fallback => exact fun falls => solve_fallback_norm_le hρ hr falls h
  case reported =>
    intro hP
    by_cases falls : TakesGradient solver.settings (entries b) cs.begin
    · obtain ⟨x, t, -, -, hnorm, hle, -⟩ := solve_fallback_norm_le hρ hr falls h
      rw [hnorm]
      exact ⟨Exact.real_le.mpr (norm_nonneg x), Exact.real_le.mpr hle⟩
    · obtain ⟨hradius, x, v, rests, -, hnorm⟩ := Solver.solve_rests (allows_any cs.operator)
        hP.answers hρ hr falls h
      obtain ⟨hv, hle⟩ := rests.stepNorm_mem (hradius ▸ hρ)
      rw [hnorm, ← hradius]
      exact ⟨Exact.real_le.mpr hv, Exact.real_le.mpr hle⟩
  case tracked => exact fun weighs hn direct => solve_tracked_norm_le hρ hr weighs hn direct h
  case weighted =>
    intro A w weighs hn small
    by_cases falls : TakesGradient solver.settings (entries b) cs.begin
    · obtain ⟨x, t, hx, -, -, -, hw⟩ := solve_fallback_norm_le hρ hr falls h
      have hle := hw w 1 small
      rw [Real.sqrt_one, one_mul] at hle
      exact ⟨x, hx, hle⟩
    · obtain ⟨x, hx, -, hle, -⟩ := solve_tracked_norm_le hρ hr weighs hn falls h
      exact ⟨x, hx, hle⟩

theorem Collaborators.diagonal_weighs {d : RealVector n} (hd : ∀ i, d i ≠ 0) {c : ℝ} (hc : 0 < c) :
    (diagonal d (1 / c)).Weighs (weighting d hd).toLinearMap fun _ => c where
  symmetric := isSymmetric_weighting hd
  positive _ := hc
  operator := (diagonal_serves d (1 / c)).1.computes.answers.allows
  preconditioner := by
    have divides : (fun x : RealVector n => (1 / c) • x) = multiply (diag fun _ => 1 / c) := by
      funext x
      ext i
      simp [multiply_diag]
    rw [← divides]
    exact (diagonal_serves d (1 / c)).2.computes

/-- A solve that falls back to the gradient, and one that is cut off in its second pass. -/
theorem solve_holds_within_pair :
    (∃ solution, ((Solver.plain 1 .preconditioned).solve (.scaling 1 (-1))
        (entries !₂[3, 4]) 5).result = .ok solution ∧
      ∃ x : RealVector 2, solution.step = entries x ∧ solution.stepNorm = .real ‖x‖ ∧ ‖x‖ ≤ 1) ∧
    ∃ solution, ((Solver.plain (3 / 5) .preconditioned).solve (.diagonal !₂[1, 3] 2)
        (entries !₂[1, 1]) 9).result = .ok solution ∧
      solution.reason = .constrainedStep ∧ solution.stepNorm ≤ .real (3 / 5) ∧
      (∃ x : RealVector 2, solution.step = entries x ∧ √(∑ i, 1 / 2 * x i ^ 2) = 3 / 5) ∧
      ∃ x : RealVector 2, solution.step = entries x ∧ √(∑ i, 1 / 2 * x i ^ 2) ≤ 3 / 5 := by
  constructor
  · obtain ⟨solution, h⟩ :=
      Solver.solve_scaling zero_le_one .preconditioned 1 (-1) (!₂[3, 4] : RealVector 2) 5
    obtain ⟨x, t, hx, -, hnorm, hle, -⟩ := (solve_holds_within zero_lt_one rfl h).fallback
      (takesGradient_scaling neg_one_lt_zero three_four_ne_zero 1 1 .preconditioned)
    exact ⟨solution, h, x, hx, hnorm, hle⟩
  · obtain ⟨solution, h, hreason⟩ := Solver.solve_pair
    have holds := solve_holds_within (by norm_num) rfl h
    obtain ⟨hH, hP⟩ := Collaborators.diagonal_serves (!₂[1, 3] : RealVector 2) 2
    have direct : ¬ TakesGradient (Solver.plain (3 / 5) .preconditioned).settings
        (entries !₂[1, 1]) (Collaborators.diagonal (!₂[1, 3] : RealVector 2) 2).begin := by
      refine not_takesGradient_of_curved hH.computes hP.computes ?_ ?_
      · norm_num [PiLp.inner_apply, Fin.sum_univ_two]
      · norm_num [PiLp.inner_apply, Fin.sum_univ_two, multiply_diag]
    have hd : ∀ i, (!₂[1, 3] : RealVector 2) i ≠ 0 := by simp [Fin.forall_fin_two]
    have weighs := Collaborators.diagonal_weighs hd (one_half_pos (α := ℝ))
    rw [one_div_one_div] at weighs
    obtain ⟨x, hx, -, -, heq⟩ := holds.tracked weighs rfl direct
    exact ⟨solution, h, hreason, (holds.reported hP.computes.staysReal).2, ⟨x, hx, heq hreason⟩,
      holds.weighted weighs rfl fun _ => one_half_lt_one.le⟩

/-- A solver that holds the step within the radius 1 by the norm of the preconditioner. -/
def Solver.unitBall : Solver Float where
  settings := ⟨1, .preconditioned, .unpreconditioned, false⟩
  report := .blank
  monitors := []

/-- The step that such a solver falls back to has the norm 2 under the diagonal that the
preconditioner inverts, where the operator writes nothing but NaN. -/
theorem solve_fallback_beyond_weighted_radius :
    ∃ J : Jacobi Float, Jacobi.ofDiagonal [4] = .ok J ∧
      ((Solver.unitBall.solve (V := List Float)
        (⟨⟨⟩, .fill (0 / 0), .jacobi J, .never⟩ :
          Collaborators (Euclidean Float) (Rule Float) (Rule Float) (Criterion Float))
        [1] 10).result.toOption.map fun solution =>
        (solution.reason, solution.step == [1],
          decide (Scalar.sqrt ((Weighted.mk [4]).product solution.step solution.step) ≤
            Solver.unitBall.settings.radius * (1 + 1e-8)))) = some (.badOperator, true, false) := by
  refine ⟨⟨[1 / 4]⟩, by rfl, ?_⟩
  decide +kernel

end

end

end TrustRegion
