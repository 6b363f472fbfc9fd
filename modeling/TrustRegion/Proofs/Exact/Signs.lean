import TrustRegion.Proofs.Exact.Cauchy
import TrustRegion.Proofs.Exact.Fallback
import TrustRegion.Proofs.Exact.Maps
import TrustRegion.Proofs.Roots

/-! Solves that track the norm of a preconditioner which need not have one: whatever the operator
and the preconditioner answer, the tracked numbers keep their signs, no root is taken of a negative
number, and the reported norm is within the radius. -/
namespace TrustRegion

open scoped RealInnerProductSpace
open RunM

namespace Subproblem

variable {E : Type} [NormedAddCommGroup E] [InnerProductSpace ℝ E] {Q : Subproblem E} {k i : ℕ}
  {x : E} {f : Figures ℝ} {reason : Reason}

theorem FallsBack.stepNorm_mem (h : Q.FallsBack i x f) (hr : 0 < Q.radius) :
    0 ≤ f.stepNorm ∧ f.stepNorm ≤ Q.radius := by
  cases h with
  | stays unconstrained => exact absurd unconstrained hr.ne'
  | falls =>
    obtain ⟨hnorm, hle⟩ := Q.gradientNorm_eq hr.le
    exact ⟨hnorm ▸ norm_nonneg _, hle⟩

theorem Rests.stepNorm_mem {v : ℝ} (h : Q.Rests reason x v) (hr : 0 < Q.radius) :
    0 ≤ v ∧ v ≤ Q.radius := by
  cases h with
  | leaves | boundary => exact ⟨hr.le, le_rfl⟩
  | inside pass inside =>
    refine ⟨Real.sqrt_nonneg _, Real.sqrt_le_iff.mpr ⟨hr.le, ?_⟩⟩
    rw [pass.nextStepSq_eq, sq]
    exact (inside hr).le

theorem Ends.stepNorm_mem (h : Q.Ends k reason x f) (hr : 0 < Q.radius) :
    0 ≤ f.stepNorm ∧ f.stepNorm ≤ Q.radius := by
  obtain rests | ⟨-, i, z, w, falls, -⟩ := h.rests_or_fallsBack
  · exact rests.stepNorm_mem hr
  · exact falls.stepNorm_mem hr

end Subproblem

section

variable {n : ℕ} {H P C : Type} [ActsOn (List Exact) H] [ActsOn (List Exact) P]
  [ConvergenceTest Exact C] {s : Settings Exact} {b : RealVector n} {m k l : ℕ}
  {act pre : RealVector n → RealVector n → Prop} {it it' : Iterate Exact (List Exact)}
  {run₀ run run' : Run Exact (Euclidean Exact) H P C}

omit [ActsOn (List Exact) H] [ActsOn (List Exact) P] [ConvergenceTest Exact C] in
theorem residualSq_nonneg (r z : RealVector n) {rz : ℝ} (h : 0 ≤ rz) :
    0 ≤ residualSq s (entries r) (entries z) (.real rz) := by
  have square (x : RealVector n) : 0 ≤ Dense.dot (entries x) (entries x) := by
    rw [Dense.dot_entries]
    exact Exact.real_le.mpr real_inner_self_nonneg
  unfold residualSq
  cases s.residualNorm with
  | preconditioned => exact square z
  | unpreconditioned => exact square r
  | natural => exact Exact.real_le.mpr h

variable (fits : (s.subproblem b m act pre).Fits s) (h₀ : run₀.Obeys act pre)
  (hf₀ : run₀.figures = Figures.lift ⟨0, 0, 0⟩)

include fits h₀ hf₀

theorem ReachesPass.tracked_nonneg (hn : s.directionNorm = .preconditioned)
    (pass : ReachesPass s (entries b) m run₀ k it run) :
    0 ≤ it.cross ∧ 0 ≤ it.directionSq ∧ 0 ≤ it.stepSq := by
  obtain ⟨it, q, reach, rfl, -⟩ := pass.lift fits h₀ hf₀
  obtain ⟨hs, hc, hd, -⟩ := reach.tracked_nonneg hn
  exact ⟨hc, hd, hs⟩

theorem ReachesPass.stepSq_le (hn : s.directionNorm = .preconditioned)
    (pass : ReachesPass s (entries b) m run₀ k it run)
    (later : ReachesPass s (entries b) m run₀ l it' run') (h : k ≤ l) :
    it.stepSq ≤ it'.stepSq := by
  induction later with
  | first starts finite nonneg goes =>
    obtain rfl := Nat.le_zero.mp h
    obtain ⟨rfl, -⟩ := pass.unique (.first starts finite nonneg goes)
    obtain ⟨it, q, reach, rfl, -⟩ := pass.lift fits h₀ hf₀
    exact Exact.real_le.mpr le_rfl
  | @next l mid next it' run₁ run₂ run₃ run₄ prior full reviews below turns ih =>
    have later : ReachesPass s (entries b) m run₀ (l + 1) it' run₄ :=
      .next prior full reviews below turns
    rcases Nat.le_succ_iff.mp h with hle | rfl
    · have carried : it'.stepSq = mid.nextSq := by
        rw [yields_turn_stepSq turns it' rfl, yields_advance_stepSq hn full.advances]
      have grows : mid.stepSq ≤ mid.nextSq := by
        obtain ⟨mid, q, reach, rfl, -⟩ := prior.lift fits h₀ hf₀
        rw [mid.nextSq_lift reach.curvature_pos.ne']
        exact reach.stepSq_le_fullSq hn
      rw [carried]
      exact Exact.le_trans (ih hle) grows
    · obtain ⟨rfl, -⟩ := pass.unique later
      obtain ⟨it, q, reach, rfl, -⟩ := pass.lift fits h₀ hf₀
      exact Exact.real_le.mpr le_rfl

theorem ReachesPass.stepSq_lt (hr : 0 < s.radius)
    (pass : ReachesPass s (entries b) m run₀ k it run) : it.stepSq < s.radiusSq := by
  obtain ⟨it, q, reach, rfl, -⟩ := pass.lift fits h₀ hf₀
  rw [fits.radius] at hr
  rw [fits.radiusSq]
  exact reach.stepSq_lt hr

/-- A pass that would cross the boundary has a direction with a norm and is cut off on its way. -/
theorem ReachesPass.boundary_mem (pass : ReachesPass s (entries b) m run₀ k it run)
    (crosses : it.Crosses s) :
    0 < it.directionSq ∧ 0 ≤ it.boundary s ∧ it.boundary s ≤ it.alpha := by
  obtain ⟨it, q, reach, rfl, -⟩ := pass.lift fits h₀ hf₀
  rw [Iterate.crosses_lift fits reach.curvature_pos.ne'] at crosses
  obtain ⟨constrained, hsq⟩ := crosses
  rw [(reach.boundary_lift fits constrained hsq).2, it.alpha_lift reach.curvature_pos.ne']
  exact ⟨reach.directionSq_pos constrained hsq, reach.boundaryLength_mem constrained hsq⟩

/-- No root is taken of a negative number, nor of what is none. -/
theorem TakesRoot.nonneg {x : Exact} (root : TakesRoot s (entries b) m run₀ x) : 0 ≤ x := by
  have begins : run₀.Begins (s.subproblem b m act pre) := h₀.begins hf₀
  cases root with
  | rhs starts | gradientNorm starts =>
    rw [(start_eq_ok starts).2]
    exact Exact.real_le.mpr real_inner_self_nonneg
  | first starts _ nonneg =>
    obtain ⟨z, -, rfl, -⟩ := start_lift starts begins
    exact residualSq_nonneg b z (not_lt.mp nonneg)
  | gradientLength starts _ _ outside =>
    rw [(start_eq_ok starts).2, fits.radiusSq] at outside ⊢
    have hrr : 0 < ⟪b, b⟫ := (mul_self_nonneg _).trans_lt (not_le.mp outside)
    rw [Exact.real_div hrr.ne']
    exact Exact.real_le.mpr (div_nonneg (mul_self_nonneg _) hrr.le)
  | @leave _ _ directionSq _ _ _ _ _ _ _ _ _ _ _ long =>
    cases directionSq with
    | undefined => exact long.elim
    | real d =>
      have hd : 0 < d := long
      rw [fits.radiusSq, Exact.real_div hd.ne']
      exact Exact.real_le.mpr (div_nonneg (mul_self_nonneg _) hd.le)
  | boundary pass crosses _ =>
    obtain ⟨it, q, reach, rfl, -⟩ := pass.lift fits h₀ hf₀
    rw [Iterate.crosses_lift fits reach.curvature_pos.ne'] at crosses
    rw [fits.radiusSq]
    exact (reach.boundary_lift fits crosses.1 crosses.2).1
  | advance pass _ =>
    obtain ⟨it, q, reach, rfl, -⟩ := pass.lift fits h₀ hf₀
    rw [it.nextSq_lift reach.curvature_pos.ne']
    exact reach.fullSq_nonneg
  | review pass full nonneg =>
    obtain ⟨it, q, reach, rfl, hobeys, hf⟩ := pass.lift fits h₀ hf₀
    obtain ⟨-, z, -, rfl, -⟩ := full.lift fits reach hobeys hf
    exact residualSq_nonneg _ z (not_lt.mp nonneg)

end

noncomputable section

namespace Subproblem

section Course

variable {E : Type} [NormedAddCommGroup E] [InnerProductSpace ℝ E] {Q : Subproblem E} {k : ℕ}
  {it : Iterate ℝ E} {q : ℝ} {A P : E → E}

/-- The iterates of the passes with the operator `A` and the preconditioner `P`, as long as nothing
ends them. -/
def course (A P : E → E) (b : E) : ℕ → Iterate ℝ E
  | 0 => .opening .preconditioned b (P b) (A (P b))
  | k + 1 =>
    let next := (course A P b k).stepped .preconditioned (P (course A P b k).nextResidual)
    (course A P b k).turned .preconditioned next (A ((course A P b k).nextDirection next))

theorem Reaches.eq_course (h : Q.Reaches k it q) (hn : Q.norm = .preconditioned)
    (hA : ∀ x w, Q.Acts x w → w = A x) (hP : ∀ r z, Q.Preconditions r z → z = P r) :
    it = course A P Q.rhs k := by
  induction h with
  | first hz hw =>
    obtain rfl := hP _ _ (Q.opens_le _ hz)
    obtain rfl := hA _ _ hw
    rw [hn]
    rfl
  | next pass inside hz _ _ _ hw _ ih =>
    obtain rfl := hP _ _ hz
    obtain rfl := hA _ _ hw
    rw [hn, ih]
    rfl

end Course

section Pair

theorem course_pair_zero :
    course (multiply (diag (!₂[1, 3] : RealVector 2))) ((2 : ℝ) • ·) !₂[1, 1] 0 =
      { step := 0, residual := !₂[1, 1], preconditioned := !₂[2, 2], direction := !₂[2, 2]
        product := !₂[2, 6], rz := 4, curvature := 16, stepSq := 0, cross := 0
        directionSq := 4 } := by
  have hz : (2 : ℝ) • (!₂[1, 1] : RealVector 2) = !₂[2, 2] := by
    ext i
    fin_cases i <;> simp
  have hw : multiply (diag (!₂[1, 3] : RealVector 2)) !₂[2, 2] = !₂[2, 6] := by
    rw [multiply_diag]
    ext i
    fin_cases i <;> norm_num
  simp only [course, hz, hw, Iterate.opening]
  norm_num [PiLp.inner_apply, Fin.sum_univ_two]

theorem course_pair_one :
    course (multiply (diag (!₂[1, 3] : RealVector 2))) ((2 : ℝ) • ·) !₂[1, 1] 1 =
      { step := !₂[1 / 2, 1 / 2], residual := !₂[1 / 2, -(1 / 2)], preconditioned := !₂[1, -1]
        direction := !₂[3 / 2, -(1 / 2)], product := !₂[3 / 2, -(3 / 2)], rz := 1, curvature := 3
        stepSq := 1 / 4, cross := 1 / 4, directionSq := 5 / 4 } := by
  rw [course, course_pair_zero]
  simp only [Iterate.turned, Iterate.stepped, Iterate.nextStep, Iterate.nextResidual,
    Iterate.nextDirection, Iterate.nextStepSq, Iterate.nextCross, Iterate.nextDirectionSq,
    Iterate.fullSq, Iterate.fullLength, multiply_diag]
  have hr : !₂[1, 1] - (4 / 16 : ℝ) • (!₂[2, 6] : RealVector 2) = !₂[1 / 2, -(1 / 2)] := by
    ext i
    fin_cases i <;> norm_num
  have hz : (2 : ℝ) • (!₂[1 / 2, -(1 / 2)] : RealVector 2) = !₂[1, -1] := by
    ext i
    fin_cases i <;> norm_num
  have hrz : ⟪(!₂[1 / 2, -(1 / 2)] : RealVector 2), !₂[1, -1]⟫ = 1 := by
    norm_num [PiLp.inner_apply, Fin.sum_univ_two]
  have hp : !₂[1, -1] + (1 / 4 : ℝ) • (!₂[2, 2] : RealVector 2) = !₂[3 / 2, -(1 / 2)] := by
    ext i
    fin_cases i <;> norm_num
  simp only [hr, hz, hrz, hp]
  congr 1
  · ext i
    fin_cases i <;> norm_num
  · ext i
    fin_cases i <;> norm_num
  all_goals norm_num [PiLp.inner_apply, Fin.sum_univ_two]

variable {Q : Subproblem (RealVector 2)} {k : ℕ} {it : Iterate ℝ (RealVector 2)} {q : ℝ}
  {x : RealVector 2} {f : Figures ℝ} {reason : Reason} (hb : Q.rhs = !₂[1, 1])
  (hr : Q.radius = 3 / 5) (hn : Q.norm = .preconditioned)
  (hA : ∀ x w, Q.Acts x w → w = multiply (diag (!₂[1, 3] : RealVector 2)) x)
  (hP : ∀ r z, Q.Preconditions r z → z = (2 : ℝ) • r)

include hb hr hn hA hP

theorem Reaches.inside_pair_iff (h : Q.Reaches k it q) (hk : k ≤ 1) : Q.Inside it ↔ k = 0 := by
  have hit := h.eq_course hn hA hP
  rw [hb] at hit
  obtain rfl | rfl := Nat.le_one_iff_eq_zero_or_eq_one.mp hk
  · rw [course_pair_zero] at hit
    subst hit
    norm_num [Inside, hr, Iterate.fullSq, Iterate.fullLength]
  · rw [course_pair_one] at hit
    subst hit
    norm_num [Inside, hr, Iterate.fullSq, Iterate.fullLength]

theorem Reaches.le_one_of_pair (h : Q.Reaches k it q) : k ≤ 1 := by
  induction h with
  | first => exact zero_le_one
  | next pass inside _ _ _ _ _ _ ih =>
    rw [pass.inside_pair_iff hb hr hn hA hP ih] at inside
    omega

theorem Ends.cut_of_pair (h : Q.Ends k reason x f) (hcap : 2 ≤ Q.cap)
    (unasked : ∀ v : Verdict, v.reason? ≠ some reason) : reason = .constrainedStep := by
  have zero := course_pair_zero
  have one := course_pair_one
  rw [← hb] at zero one
  have curved {z w : RealVector 2} (hz : Q.Opens z) (hw : Q.Acts z w) : ¬ ⟪z, w⟫ ≤ 0 := by
    obtain rfl := hP _ _ (Q.opens_le _ hz)
    obtain rfl := hA _ _ hw
    rw [show ⟪(2 : ℝ) • Q.rhs, _⟫ = 16 from congrArg Iterate.curvature zero]
    norm_num
  cases h with
  | indefinite hz neg =>
    obtain rfl := hP _ _ (Q.opens_le _ hz)
    rw [show ⟪Q.rhs, (2 : ℝ) • Q.rhs⟫ = 4 from congrArg Iterate.rz zero] at neg
    norm_num at neg
  | leaves hz _ hw flat => exact absurd flat (curved hz hw)
  | fallsBack hz _ hw flat => exact absurd flat (curved hz hw)
  | boundary => rfl
  | @inside _ _ it _ _ _ pass inside hz stops =>
    have hit := pass.eq_course hn hA hP
    rw [pass.inside_pair_iff hb hr hn hA hP (pass.le_one_of_pair hb hr hn hA hP)] at inside
    obtain rfl := hP _ _ hz
    subst inside
    rw [hn] at stops
    have prev : it.rz = 4 := by
      rw [hit]
      exact congrArg Iterate.rz zero
    have next : (it.stepped .preconditioned ((2 : ℝ) • it.nextResidual)).rz = 1 := by
      rw [hit]
      exact congrArg Iterate.rz one
    cases stops with
    | indefinite neg => linarith
    | converged _ why => exact absurd rfl (unasked (.converged why))
    | diverged _ why => exact absurd rfl (unasked (.diverged why))
    | breakdown _ vanishes =>
      rw [prev, next] at vanishes
      norm_num at vanishes
    | limit _ _ reached => omega
    | curvature _ _ _ hw flat =>
      obtain rfl := hA _ _ hw
      rw [hit, show ⟪_, _⟫ = 3 from congrArg Iterate.curvature one] at flat
      norm_num at flat

end Pair

end Subproblem

section Pair

/-- A diagonal operator and the preconditioner `p I`, without a convergence test. -/
def Collaborators.diagonal {n : ℕ} (d : RealVector n) (p : ℝ) :
    Collaborators (Euclidean Exact) (Rule Exact) (Rule Exact) (Criterion Exact) where
  space := ⟨⟩
  operator := .diagonal ⟨entries d⟩
  preconditioner := .scale (.real p)
  test := .never

theorem Collaborators.diagonal_serves {n : ℕ} (d : RealVector n) (p : ℝ) :
    Serves (multiply (diag d)) (diagonal d p).operator ∧
      Serves (fun x : RealVector n => p • x) (diagonal d p).preconditioner :=
  ⟨(Rule.Represents.diagonal d).serves, Rule.serves_scale p⟩

theorem Solver.solve_pair :
    ∃ solution, ((Solver.plain (3 / 5) .preconditioned).solve (.diagonal !₂[1, 3] 2)
        (entries !₂[1, 1]) 9).result = .ok solution ∧
      solution.reason = .constrainedStep := by
  obtain ⟨hH, hP⟩ := Collaborators.diagonal_serves (!₂[1, 3] : RealVector 2) 2
  have hr : 0 ≤ (Solver.plain (3 / 5) .preconditioned).settings.radius :=
    Exact.real_le.mpr (by norm_num)
  obtain ⟨solution, h⟩ := Solver.solve_total (b := !₂[1, 1]) (m := 9) hr hH hP
  obtain ⟨-, x, f, ends, -⟩ := Solver.solve_lift hH.computes.answers hP.computes.answers h
  refine ⟨solution, h, ends.cut_of_pair rfl rfl rfl (fun _ _ hw => hw) (fun _ _ hz => hz) ?_ ?_⟩
  · exact le_min (by omega) le_rfl
  · exact fun v => Solver.reason_of_idle idle_never h

theorem ReachesPass.eq_one_of_pair {k : ℕ} {it : Iterate Exact (List Exact)}
    {run : Run Exact (Euclidean Exact) (Rule Exact) (Rule Exact) (Criterion Exact)}
    (pass : ReachesPass (Solver.plain (3 / 5) .preconditioned).settings (entries !₂[1, 1]) 9
      (Collaborators.diagonal (!₂[1, 3] : RealVector 2) 2).begin k it run)
    (crosses : it.Crosses (Solver.plain (3 / 5) .preconditioned).settings) : k = 1 := by
  obtain ⟨hH, hP⟩ := Collaborators.diagonal_serves (!₂[1, 3] : RealVector 2) 2
  let Q := (Solver.plain (3 / 5) .preconditioned).settings.subproblem !₂[1, 1] 9
    (fun x w => w = multiply (diag (!₂[1, 3] : RealVector 2)) x) fun r z => z = (2 : ℝ) • r
  have fits : Q.Fits (Solver.plain (3 / 5) .preconditioned).settings :=
    Settings.subproblem_fits_of_nonneg (Exact.real_le.mpr (by norm_num))
  have obeys : (Collaborators.diagonal (!₂[1, 3] : RealVector 2) 2).begin.Obeys Q.Acts
    Q.Preconditions := ⟨hH.computes.answers, hP.computes.answers⟩
  obtain ⟨it, q, reach, rfl, -⟩ := pass.lift fits obeys rfl
  rw [Iterate.crosses_lift fits reach.curvature_pos.ne'] at crosses
  have hk := reach.le_one_of_pair rfl rfl rfl (fun _ _ hw => hw) fun _ _ hz => hz
  have inside := reach.inside_pair_iff rfl rfl rfl (fun _ _ hw => hw) (fun _ _ hz => hz) hk
  by_contra hne
  have first : k = 0 := by omega
  exact (inside.mpr first crosses.1).not_ge crosses.2

end Pair

end

section

variable {n : ℕ} {H P C : Type} [ActsOn (List Exact) H] [ActsOn (List Exact) P]
  [ConvergenceTest Exact C]

/-- What the signs of the tracked numbers keep true of a solve. -/
structure Solver.KeepsSigns (solver : Solver Exact) (cs : Collaborators (Euclidean Exact) H P C)
    (rhs : List Exact) (m : ℕ) : Prop where
  tracked {k : ℕ} {it : Iterate Exact (List Exact)} {run : Run Exact (Euclidean Exact) H P C}
    (pass : ReachesPass solver.settings rhs m cs.begin k it run) :
      0 ≤ it.cross ∧ 0 ≤ it.directionSq ∧ 0 ≤ it.stepSq
  grows {k l : ℕ} {it it' : Iterate Exact (List Exact)}
    {run run' : Run Exact (Euclidean Exact) H P C}
    (pass : ReachesPass solver.settings rhs m cs.begin k it run)
    (later : ReachesPass solver.settings rhs m cs.begin l it' run') (h : k ≤ l) :
      it.stepSq ≤ it'.stepSq
  inside {k : ℕ} {it : Iterate Exact (List Exact)} {run : Run Exact (Euclidean Exact) H P C}
    (pass : ReachesPass solver.settings rhs m cs.begin k it run)
    (hr : 0 < solver.settings.radius) : it.stepSq < solver.settings.radiusSq
  roots {x : Exact} (root : TakesRoot solver.settings rhs m cs.begin x) : 0 ≤ x
  /-- What is taken for the roots of other numbers makes no difference to a solve. -/
  otherRoot (root : Exact → Exact) (same : ∀ x, 0 ≤ x → root x = Scalar.sqrt x) :
    (letI : Scalar Exact := .withRoot root; solver.solve cs rhs m) = solver.solve cs rhs m
  cut {k : ℕ} {it : Iterate Exact (List Exact)} {run : Run Exact (Euclidean Exact) H P C}
    (pass : ReachesPass solver.settings rhs m cs.begin k it run)
    (crosses : it.Crosses solver.settings) : 0 < it.directionSq ∧
      0 ≤ it.boundary solver.settings ∧ it.boundary solver.settings ≤ it.alpha
  constrained {solution : Solution Exact (List Exact)}
    (h : (solver.solve cs rhs m).result = .ok solution)
    (hcut : solution.reason = .constrainedStep) :
      ∃ k it run, ReachesPass solver.settings rhs m cs.begin k it run ∧
        it.Crosses solver.settings ∧ 0 < it.directionSq ∧ solution.step =
          Dense.combine (it.boundary solver.settings) it.direction 1 it.step
  stepNorm {solution : Solution Exact (List Exact)}
    (h : (solver.solve cs rhs m).result = .ok solution) (hr : 0 < solver.settings.radius) :
      0 ≤ solution.stepNorm ∧ solution.stepNorm ≤ solver.settings.radius

/-- In exact arithmetic and under the norm of the preconditioner, whatever the collaborators
answer, the tracked numbers of a solve keep their signs, and the reported norm its bound. -/
theorem solve_keeps_signs {solver : Solver Exact} {cs : Collaborators (Euclidean Exact) H P C}
    {b : RealVector n} {m : ℕ} (valid : solver.settings.validate = .ok ())
    (hn : solver.settings.directionNorm = .preconditioned) (hH : StaysReal n cs.operator)
    (hP : StaysReal n cs.preconditioner) : solver.KeepsSigns cs (entries b) m := by
  have fits : (solver.settings.subproblem b m (fun _ _ => True) fun _ _ => True).Fits
      solver.settings := Settings.subproblem_fits valid
  have obeys : cs.begin.Obeys (fun _ _ : RealVector n => True) fun _ _ => True :=
    ⟨hH.answers, hP.answers⟩
  have hcut {k : ℕ} {it : Iterate Exact (List Exact)} {run : Run Exact (Euclidean Exact) H P C}
      (pass : ReachesPass solver.settings (entries b) m cs.begin k it run)
      (crosses : it.Crosses solver.settings) := pass.boundary_mem fits obeys rfl crosses
  constructor
  case tracked => exact fun pass => pass.tracked_nonneg fits obeys rfl hn
  case grows => exact fun pass later h => pass.stepSq_le fits obeys rfl hn later h
  case inside => exact fun pass hr => pass.stepSq_lt fits obeys rfl hr
  case roots => exact fun root => root.nonneg fits obeys rfl
  case otherRoot =>
    exact fun root same => Solver.solve_withRoot hn fun x taken =>
      same x (taken.nonneg fits obeys rfl)
  case cut => exact hcut
  case constrained =>
    intro solution h hreason
    obtain ⟨-, k, stop, run, ends, hstep, heq, -⟩ := Solver.solve_eq_ok h
    obtain ⟨it, run₁, pass, crosses, truncates⟩ := ends.crossing (heq.symm.trans hreason)
    have long := (hcut pass crosses).1
    exact ⟨k, it, run₁, pass, crosses, long, hstep.trans (yields_truncate_long long truncates)⟩
  case stepNorm =>
    intro solution h hr
    obtain ⟨-, x, f, ends, -, hnorm, -⟩ := Solver.solve_lift hH.answers hP.answers h
    rw [fits.radius] at hr ⊢
    rw [hnorm]
    exact ends.stepNorm_mem hr

/-- Two passes of a solve with a positive operator, the second of which is cut off. -/
theorem solve_keeps_signs_pair :
    (Solver.plain (3 / 5) .preconditioned).settings.validate = .ok () ∧
      StaysReal 2 (Collaborators.diagonal (!₂[1, 3] : RealVector 2) 2).operator ∧
      StaysReal 2 (Collaborators.diagonal (!₂[1, 3] : RealVector 2) 2).preconditioner ∧
      ∃ solution it run it' run',
        ((Solver.plain (3 / 5) .preconditioned).solve (.diagonal !₂[1, 3] 2)
          (entries !₂[1, 1]) 9).result = .ok solution ∧
        solution.reason = .constrainedStep ∧
        0 ≤ solution.stepNorm ∧ solution.stepNorm ≤ .real (3 / 5) ∧
        ReachesPass (Solver.plain (3 / 5) .preconditioned).settings (entries !₂[1, 1]) 9
          (Collaborators.diagonal (!₂[1, 3] : RealVector 2) 2).begin 0 it run ∧
        ReachesPass (Solver.plain (3 / 5) .preconditioned).settings (entries !₂[1, 1]) 9
          (Collaborators.diagonal (!₂[1, 3] : RealVector 2) 2).begin 1 it' run' ∧
        it.stepSq ≤ it'.stepSq ∧
        it'.stepSq < (Solver.plain (3 / 5) .preconditioned).settings.radiusSq ∧
        (0 ≤ it'.cross ∧ 0 ≤ it'.directionSq ∧ 0 ≤ it'.stepSq) ∧
        it'.Crosses (Solver.plain (3 / 5) .preconditioned).settings ∧
        0 ≤ it'.boundary (Solver.plain (3 / 5) .preconditioned).settings ∧
        it'.boundary (Solver.plain (3 / 5) .preconditioned).settings ≤ it'.alpha ∧
        solution.step = Dense.combine
          (it'.boundary (Solver.plain (3 / 5) .preconditioned).settings) it'.direction 1
          it'.step := by
  have valid : (Solver.plain (3 / 5) .preconditioned).settings.validate = .ok () := by
    have hr : (0 : ℝ) ≤ 3 / 5 := by norm_num
    simpa [Settings.validate, Settings.checkRadius, Solver.plain] using hr
  have hr : 0 < (Solver.plain (3 / 5) .preconditioned).settings.radius :=
    Exact.real_lt.mpr (by norm_num)
  obtain ⟨hH, hP⟩ := Collaborators.diagonal_serves (!₂[1, 3] : RealVector 2) 2
  have keeps : (Solver.plain (3 / 5) .preconditioned).KeepsSigns (.diagonal !₂[1, 3] 2)
      (entries !₂[1, 1]) 9 :=
    solve_keeps_signs valid rfl hH.computes.staysReal hP.computes.staysReal
  obtain ⟨solution, h, hreason⟩ := Solver.solve_pair
  obtain ⟨hnonneg, hle⟩ := keeps.stepNorm h hr
  obtain ⟨k, it', run', pass, crosses, -, hstep⟩ := keeps.constrained h hreason
  obtain rfl : k = 1 := pass.eq_one_of_pair crosses
  obtain ⟨it, run, first⟩ := pass.exists_of_le zero_le_one
  obtain ⟨-, hcut⟩ := keeps.cut pass crosses
  exact ⟨valid, hH.computes.staysReal, hP.computes.staysReal, solution, it, run, it', run', h,
    hreason, hnonneg, hle, first, pass, keeps.grows first pass zero_le_one, keeps.inside pass hr,
    keeps.tracked pass, crosses, hcut.1, hcut.2, hstep⟩

end

end TrustRegion
