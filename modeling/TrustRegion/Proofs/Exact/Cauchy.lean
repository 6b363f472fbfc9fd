import TrustRegion.Proofs.Exact.Model
import TrustRegion.Proofs.Exact.Scaling

/-! Sufficient decrease: no step within the radius along the first direction has a lower objective
than the one that is reported. -/
namespace TrustRegion

open scoped RealInnerProductSpace

namespace Iterate

section

variable {E : Type} {it : Iterate ℝ E} {ρ t u : ℝ}

theorem changeAlong_zero (it : Iterate ℝ E) : it.changeAlong 0 = 0 := zero_mul _

/-- Going further along the direction lowers the objective up to the full step, and all the way if
the curvature is not positive. -/
theorem changeAlong_le (htu : t ≤ u) (h : 1 / 2 * (t + u) * it.curvature ≤ it.rz) :
    it.changeAlong u ≤ it.changeAlong t := by
  have hdiff : it.changeAlong t - it.changeAlong u =
      (u - t) * (it.rz - 1 / 2 * (t + u) * it.curvature) := by
    unfold changeAlong
    ring
  have hprod : 0 ≤ (u - t) * (it.rz - 1 / 2 * (t + u) * it.curvature) :=
    mul_nonneg (sub_nonneg.mpr htu) (sub_nonneg.mpr h)
  linarith

theorem changeAlong_le_of_le_fullLength (hc : 0 < it.curvature) (htu : t ≤ u)
    (hu : u ≤ it.fullLength) : it.changeAlong u ≤ it.changeAlong t := by
  apply changeAlong_le htu
  have hrz : it.fullLength * it.curvature = it.rz := div_mul_cancel₀ _ hc.ne'
  have hmean : 1 / 2 * (t + u) ≤ it.fullLength := by linarith
  calc
    1 / 2 * (t + u) * it.curvature ≤ it.fullLength * it.curvature :=
      mul_le_mul_of_nonneg_right hmean hc.le
    _ = it.rz := hrz

theorem fullStep_le_changeAlong (hc : 0 < it.curvature) (t : ℝ) :
    -(1 / 2 * it.fullLength * it.rz) ≤ it.changeAlong t := by
  have hrz : it.fullLength * it.curvature = it.rz := div_mul_cancel₀ _ hc.ne'
  have hsq : 0 ≤ 1 / 2 * it.curvature * (t - it.fullLength) ^ 2 := by positivity
  have hchange : it.changeAlong t + 1 / 2 * it.fullLength * it.rz =
      1 / 2 * it.curvature * (t - it.fullLength) ^ 2 := by
    unfold changeAlong
    linear_combination (t - 1 / 2 * it.fullLength) * hrz
  linarith

theorem le_boundaryLength (hp : 0 < it.directionSq)
    (h : it.stepSq + t * (2 * it.cross + t * it.directionSq) ≤ ρ * ρ) :
    t ≤ it.boundaryLength ρ := by
  unfold boundaryLength
  rw [le_div_iff₀ hp, le_sub_iff_add_le]
  apply Real.le_sqrt_of_sq_le
  have hmul : it.directionSq * (it.stepSq + t * (2 * it.cross + t * it.directionSq)) ≤
      it.directionSq * (ρ * ρ) := mul_le_mul_of_nonneg_left h hp.le
  linarith

theorem boundaryLength_le (hp : 0 < it.directionSq) (hs : it.stepSq < ρ * ρ) (ht : 0 ≤ t)
    (h : ρ * ρ ≤ it.stepSq + t * (2 * it.cross + t * it.directionSq)) :
    it.boundaryLength ρ ≤ t := by
  unfold boundaryLength
  rw [div_le_iff₀ hp, sub_le_iff_le_add]
  apply Real.sqrt_le_iff.mpr
  constructor
  · by_contra hneg
    have hcross : 2 * it.cross + t * it.directionSq ≤ 0 := by
      have := mul_nonneg ht hp.le
      linarith
    have := mul_nonpos_of_nonneg_of_nonpos ht hcross
    linarith
  · have hmul : it.directionSq * (ρ * ρ) ≤
        it.directionSq * (it.stepSq + t * (2 * it.cross + t * it.directionSq)) :=
      mul_le_mul_of_nonneg_left h hp.le
    linarith

end

end Iterate

namespace Subproblem

open Iterate

section

variable {E : Type} [NormedAddCommGroup E] [InnerProductSpace ℝ E] {A : E →ₗ[ℝ] E}
  {Q : Subproblem E} {k : ℕ} {it : Iterate ℝ E} {q t : ℝ} {x z₀ : E} {f : Figures ℝ}
  {reason : Reason}

/-- The step to the boundary is no longer than the full step that it stands for. -/
theorem Reaches.boundaryLength_mem (h : Q.Reaches k it q) (hr : 0 < Q.radius)
    (crosses : Q.radius * Q.radius ≤ it.fullSq) :
    0 ≤ it.boundaryLength Q.radius ∧ it.boundaryLength Q.radius ≤ it.fullLength := by
  have hp := h.directionSq_pos hr crosses
  have hs := h.stepSq_lt hr
  refine ⟨le_boundaryLength hp ?_, boundaryLength_le hp hs h.fullLength_nonneg crosses⟩
  rw [zero_mul, add_zero]
  exact hs.le

/-- What the first pass gains over any step along its direction, later ones keep. -/
theorem Reaches.fullStep_le (h : Q.Reaches k it q) (hQ : Q.ActsBy A)
    (hopen : ∀ z, Q.Opens z → z = z₀) (t : ℝ) :
    q - 1 / 2 * it.fullLength * it.rz ≤ (opening Q.norm Q.rhs z₀ (A z₀)).changeAlong t := by
  induction h with
  | @first z w hz hw _ curved =>
    obtain rfl := hopen _ hz
    obtain rfl := hQ _ _ hw
    have hcurved : 0 < (opening Q.norm Q.rhs z (A z)).curvature := curved
    have hfull := fullStep_le_changeAlong hcurved t
    linarith
  | next pass inside hz prev pos below hw curved ih =>
    have next := Reaches.next pass inside hz prev pos below hw curved
    have hgain := mul_nonneg next.fullLength_nonneg next.rz_nonneg
    linarith

theorem Ends.objective_le_changeAlong (h : Q.Ends k reason x f) (hn : Q.norm = .unpreconditioned)
    (hr : 0 < Q.radius) (hQ : Q.ActsBy A) (hopen : ∀ z, Q.Opens z → z = z₀) (hne : z₀ ≠ 0)
    (nonneg : 0 ≤ ⟪Q.rhs, z₀⟫) (ht : 0 ≤ t) (hin : t * (t * ⟪z₀, z₀⟫) ≤ Q.radius * Q.radius) :
    f.objective ≤ (opening Q.norm Q.rhs z₀ (A z₀)).changeAlong t := by
  have hlong : 0 < ⟪z₀, z₀⟫ := real_inner_self_pos.mpr hne
  have hsq : (opening Q.norm Q.rhs z₀ (A z₀)).directionSq = ⟪z₀, z₀⟫ := by simp [opening, hn]
  cases h with
  | indefinite hz neg =>
    obtain rfl := hopen _ hz
    exact absurd neg nonneg.not_gt
  | @leaves z w hz _ hw flat _ _ τ length =>
    obtain rfl := hopen _ hz
    obtain rfl := hQ _ _ hw
    have htτ : t ≤ τ := by
      rw [length, hsq]
      apply Real.le_sqrt_of_sq_le
      rw [le_div_iff₀ hlong]
      linarith
    apply changeAlong_le htτ
    have hmean : 0 ≤ 1 / 2 * (t + τ) := by linarith
    exact (mul_nonpos_of_nonneg_of_nonpos hmean flat).trans nonneg
  | fallsBack hz _ hw _ short =>
    obtain rfl := hopen _ hz
    obtain rfl := hQ _ _ hw
    have := short hr
    rw [hsq] at this
    exact absurd hlong this.not_gt
  | boundary pass _ crosses length =>
    obtain ⟨hτ, hτα⟩ := pass.boundaryLength_mem hr crosses
    rw [← length] at hτ hτα
    cases pass with
    | @first z w hz hw _ curved =>
      obtain rfl := hopen _ hz
      obtain rfl := hQ _ _ hw
      have hstays : 0 + t * (2 * 0 + t * (opening Q.norm Q.rhs z (A z)).directionSq) ≤
          Q.radius * Q.radius := by
        rw [hsq]
        linarith
      have htτ := le_boundaryLength (hlong.trans_eq hsq.symm) hstays
      rw [← length] at htτ
      simpa using changeAlong_le_of_le_fullLength curved htτ hτα
    | next pass inside hz prev pos below hw curved =>
      have hcut := changeAlong_le_of_le_fullLength curved hτ hτα
      have hstart := pass.fullStep_le hQ hopen t
      rw [changeAlong_zero] at hcut
      dsimp only
      linarith
  | inside pass => exact pass.fullStep_le hQ hopen t

end

/-- The subproblem whose preconditioner answers `z₀` at first. -/
def openedBy {E : Type} (Q : Subproblem E) (z₀ : E) (h : Q.Preconditions Q.rhs z₀) :
    Subproblem E :=
  { Q with
    Opens := (· = z₀)
    opens_le := fun _ hz => hz ▸ h }

end Subproblem

section

variable {n : ℕ} {H P C : Type} [ActsOn (List Exact) H] [ActsOn (List Exact) P]
  [ConvergenceTest Exact C]

/-- In exact arithmetic, under the norm of the space and within a radius, the reported objective is
at most the value of the model at any step within the radius along the first preconditioned
residual `z₀`, whatever the preconditioner answers later. The operator need not be symmetric. -/
theorem solve_objective_le_cauchy {A : RealVector n →ₗ[ℝ] RealVector n} {solver : Solver Exact}
    {cs : Collaborators (Euclidean Exact) H P C} {b z₀ : RealVector n} {m : ℕ}
    {solution : Solution Exact (List Exact)}
    (hn : solver.settings.directionNorm = .unpreconditioned) (hr : 0 < solver.settings.radius)
    (hH : Computes A cs.operator) (hP : StaysReal n cs.preconditioner)
    (hz₀ : (ActsOn.apply cs.preconditioner (entries b) (entries (0 : RealVector n))).1.content =
      entries z₀) (hne : z₀ ≠ 0) (nonneg : 0 ≤ ⟪b, z₀⟫)
    (h : (solver.solve cs (entries b) m).result = .ok solution) :
    ∃ q : ℝ, solution.objective = .real q ∧ q ≤ 0 ∧
      ∀ t : ℝ, 0 ≤ t → .real ‖t • z₀‖ ≤ solver.settings.radius →
        q ≤ -t * ⟪b, z₀⟫ + 1 / 2 * t ^ 2 * ⟪z₀, A z₀⟫ := by
  let Q₀ := solver.settings.subproblem b m (fun x w => w = A x) fun _ _ => True
  let Q := Q₀.openedBy z₀ trivial
  have valid : Q₀.Fits solver.settings := Settings.subproblem_fits (Solver.solve_eq_ok h).1
  have fits : Q.Fits solver.settings := ⟨valid.radius, valid.nonneg, valid.norm⟩
  have begins : cs.begin.Begins Q :=
    { operator := hH.answers
      preconditioner := hP.answers
      opens := fun z hz => entries_injective ((congrArg Written.content hz).symm.trans hz₀)
      figures := rfl }
  obtain ⟨x, f, ends, -, -, hobj, -⟩ := Solver.exists_ends fits rfl begins h
  have hradius : 0 < Q.radius := by rwa [fits.radius] at hr
  have bound {t : ℝ} (ht : 0 ≤ t) (hin : t * (t * ⟪z₀, z₀⟫) ≤ Q.radius * Q.radius) :
      f.objective ≤ (Iterate.opening Q.norm b z₀ (A z₀)).changeAlong t :=
    ends.objective_le_changeAlong hn hradius (fun _ _ hw => hw) (fun _ hz => hz) hne nonneg ht hin
  refine ⟨f.objective, hobj, ?_, fun t ht hin => ?_⟩
  · have hzero := bound le_rfl (by rw [zero_mul]; exact mul_self_nonneg _)
    rwa [Iterate.changeAlong_zero] at hzero
  · have hnorm : ‖t • z₀‖ ≤ Q.radius := by rwa [fits.radius] at hin
    have hsq : t * (t * ⟪z₀, z₀⟫) = ‖t • z₀‖ * ‖t • z₀‖ := by
      rw [← real_inner_self_eq_norm_mul_norm, real_inner_smul_left, real_inner_smul_right]
    have hle := bound ht (hsq.trans_le (mul_self_le_mul_self (norm_nonneg _) hnorm))
    calc
      f.objective ≤ t * (1 / 2 * t * ⟪z₀, A z₀⟫ - ⟪b, z₀⟫) := hle
      _ = -t * ⟪b, z₀⟫ + 1 / 2 * t ^ 2 * ⟪z₀, A z₀⟫ := by ring

/-- An operator of negative curvature everywhere, within the radius 1. -/
theorem solve_objective_le_cauchy_scaling :
    ∃ solution, ((Solver.plain 1 .unpreconditioned).solve (.scaling (-2) 1)
        (entries !₂[3, 4]) 5).result = .ok solution ∧
      ∃ q : ℝ, solution.objective = .real q ∧ q ≤ 0 ∧
        ∀ t : ℝ, 0 ≤ t → Exact.real ‖t • (!₂[3, 4] : RealVector 2)‖ ≤ .real 1 →
          q ≤ -t * ⟪(!₂[3, 4] : RealVector 2), !₂[3, 4]⟫ +
            1 / 2 * t ^ 2 * ⟪(!₂[3, 4] : RealVector 2), (-2 : ℝ) • !₂[3, 4]⟫ := by
  obtain ⟨solution, h⟩ :=
    Solver.solve_scaling zero_le_one .unpreconditioned (-2) 1 (!₂[3, 4] : RealVector 2) 5
  have hH : Computes ((-2 : ℝ) • LinearMap.id : RealVector 2 →ₗ[ℝ] RealVector 2)
      (Collaborators.scaling (-2) 1).operator := (Rule.serves_scale (-2)).computes
  have hz₀ : (ActsOn.apply (Collaborators.scaling (-2) 1).preconditioner
      (entries (!₂[3, 4] : RealVector 2)) (entries (0 : RealVector 2))).1.content =
        entries (!₂[3, 4] : RealVector 2) := by
    have happly := Rule.apply_scale 1 (!₂[3, 4] : RealVector 2) 0
    rw [one_smul] at happly
    exact congrArg (·.1.content) happly
  exact ⟨solution, h, solve_objective_le_cauchy rfl (Exact.real_lt.mpr zero_lt_one) hH
    (Rule.serves_scale 1).computes.staysReal hz₀ three_four_ne_zero real_inner_self_nonneg h⟩

end

end TrustRegion
