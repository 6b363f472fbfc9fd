import TrustRegion.Proofs.Exact.Recurrence
import TrustRegion.Proofs.Norms

/-! Solves without a preconditioner: the recurrences of one direction norm carry the numbers that
the other computes afresh, and so the two norms are the same algorithm. -/
namespace TrustRegion

open scoped RealInnerProductSpace

section Tracking

variable {E : Type} [NormedAddCommGroup E] [InnerProductSpace ℝ E] {M : E →ₗ[ℝ] E}
  {it it' : Iterate ℝ E}

theorem Iterate.Tracks.eq (tracks : it.Tracks M) (tracks' : it'.Tracks M)
    (hstep : it'.step = it.step) (hdirection : it'.direction = it.direction) :
    it'.stepSq = it.stepSq ∧ it'.cross = it.cross ∧ it'.directionSq = it.directionSq := by
  rw [tracks.stepSq, tracks.cross, tracks.directionSq, tracks'.stepSq, tracks'.cross,
    tracks'.directionSq, hstep, hdirection]
  exact ⟨rfl, rfl, rfl⟩

end Tracking

section

variable {n : ℕ} {H P C : Type} [ActsOn (List Exact) H] [ActsOn (List Exact) P]
  [ConvergenceTest Exact C] {A : RealVector n →ₗ[ℝ] RealVector n} {s : Settings Exact}
  {solver : Solver Exact} {cs : Collaborators (Euclidean Exact) H P C} {b : RealVector n} {m : ℕ}

theorem concur_of_identity (hA : A.IsSymmetric) (hH : Computes A cs.operator)
    (hP : Computes (id : RealVector n → RealVector n) cs.preconditioner)
    (constrained : s.isConstrained = true) :
    Settings.Concur { s with directionNorm := .preconditioned }
      { s with directionNorm := .unpreconditioned } (entries b) m cs.begin := by
  have hr : 0 ≤ s.radius := Exact.nonneg_of_real_lt le_rfl (of_decide_eq_true constrained)
  have obeys : cs.begin.Obeys (fun x w => w = A x) fun x z : RealVector n => z = id x :=
    ⟨hH.answers, hP.answers⟩
  let R := Settings.subproblem { s with directionNorm := .preconditioned } b m
    (fun x w => w = A x) fun x z => z = id x
  let D := Settings.subproblem { s with directionNorm := .unpreconditioned } b m
    (fun x w => w = A x) fun x z => z = id x
  have fits : R.Fits { s with directionNorm := .preconditioned } :=
    Settings.subproblem_fits_of_nonneg hr
  have fits' : D.Fits { s with directionNorm := .unpreconditioned } :=
    Settings.subproblem_fits_of_nonneg hr
  constructor
  case opening =>
    intro x p d d' run₁ run₂ run₂' run₃ run₃' starts probes probes' measured measured'
    obtain ⟨z, hz, rfl, hrun, hf⟩ := start_lift (Q := R) starts (obeys.begins rfl)
    obtain rfl : z = b := hz
    obtain ⟨w, -, rfl, -⟩ := probe_lift (Q := R) probes hrun hf
    obtain ⟨rfl, -⟩ := measure_lift (w := w) fits measured
    obtain ⟨rfl, -⟩ := measure_lift (w := w) fits' measured'
    rfl
  case pass =>
    intro k it it' run run' pass pass' agrees
    obtain ⟨x, q, reach, rfl, -⟩ := pass.lift fits obeys rfl
    obtain ⟨x', q', reach', rfl, -⟩ := pass'.lift fits' obeys rfl
    obtain ⟨stepSq, cross, directionSq, heq⟩ := agrees
    have hstep : x'.step = x.step := entries_injective (congrArg Iterate.step heq)
    have hdirection : x'.direction = x.direction :=
      entries_injective (congrArg Iterate.direction heq)
    have tracks : x.Tracks (LinearEquiv.refl ℝ (RealVector n) : RealVector n →ₗ[ℝ] RealVector n) :=
      reach.tracks rfl hA .id (fun _ _ hw => hw) fun _ _ hz => hz
    have tracks' : x'.Tracks LinearMap.id := reach'.tracks_id rfl
    obtain ⟨h₁, h₂, h₃⟩ := tracks.eq tracks' hstep hdirection
    have hs : x'.lift.stepSq = x.lift.stepSq := congrArg Exact.real h₁
    have hc : x'.lift.cross = x.lift.cross := congrArg Exact.real h₂
    have hd : x'.lift.directionSq = x.lift.directionSq := congrArg Exact.real h₃
    rw [heq] at hs hc hd
    rw [heq, show stepSq = _ from hs, show cross = _ from hc, show directionSq = _ from hd]

theorem stepNorm_of_identity (hA : A.IsSymmetric) (hH : Computes A cs.operator)
    (hP : Computes (id : RealVector n → RealVector n) cs.preconditioner)
    {solution : Solution Exact (List Exact)}
    (h : (solver.solve cs (entries b) m).result = .ok solution) :
    ∃ x : RealVector n, solution.step = entries x ∧ solution.stepNorm = .real √⟪x, x⟫ := by
  obtain ⟨fits, x, f, ends, hx, hnorm, -⟩ := Solver.solve_lift hH.answers hP.answers h
  refine ⟨x, hx, hnorm.trans (congrArg Exact.real ?_)⟩
  cases hn : solver.settings.directionNorm with
  | preconditioned =>
    have hM : (LinearEquiv.refl ℝ (RealVector n) : RealVector n →ₗ[ℝ] RealVector n).IsSymmetric :=
      .id
    exact (ends.reports hn hA hM (fun x hx => real_inner_self_pos.mpr hx)
      (fun _ _ hw => hw) fun _ _ hz => hz).norm
  | unpreconditioned => exact (ends.reports_id hn fits.nonneg).norm

/-- In exact arithmetic, for a symmetric operator and without a preconditioner, the solve that
carries the norm of the step by recurrence and the solve that computes it afresh return the same
result after the same questions to the convergence test. -/
theorem solve_eq_of_identity (hA : A.IsSymmetric) (hH : Computes A cs.operator)
    (hP : Computes (id : RealVector n → RealVector n) cs.preconditioner) :
    ((solver.setDirectionNorm .preconditioned).solve cs (entries b) m).result =
        ((solver.setDirectionNorm .unpreconditioned).solve cs (entries b) m).result ∧
      Event.evaluations
          ((solver.setDirectionNorm .preconditioned).solve cs (entries b) m).events =
        Event.evaluations
          ((solver.setDirectionNorm .unpreconditioned).solve cs (entries b) m).events := by
  obtain ⟨ops, K, governs, measures, hK⟩ := Euclidean.steady cs.space
  have variant : (solver.setDirectionNorm .preconditioned).settings.Variant id
      (solver.setDirectionNorm .unpreconditioned).settings := ⟨rfl, .inl rfl⟩
  obtain ⟨hresult, asked⟩ := Solver.solve_eq_of_variant governs measures overlooks_eq variant
    (concur_of_identity hA hH hP (b := b) (m := m)) hK rfl
  rw [Event.map_seenThrough_id, Event.map_seenThrough_id] at asked
  have beside := Solver.besideStepNorm_eq hresult asked
  have equal := map_eq_map_of_ok (g := id) beside fun solution' solution h' h hbeside => by
    obtain ⟨x, hx, hnorm⟩ := stepNorm_of_identity hA hH hP h
    obtain ⟨x', hx', hnorm'⟩ := stepNorm_of_identity hA hH hP h'
    have hstep := congrArg Solution.step hbeside
    obtain rfl : x' = x := entries_injective (hx'.symm.trans (hstep.trans hx))
    exact Solution.eq_of_besideStepNorm hbeside (hnorm'.trans hnorm.symm)
  rw [Except.map_id] at equal
  exact ⟨equal.symm, asked.symm⟩

/-- Under the operator `-I`, whose curvature is negative, within the radius 1. -/
theorem solve_eq_of_identity_scaling :
    let cs : Collaborators (Euclidean Exact) (Rule Exact) (Rule Exact) (Criterion Exact) :=
      ⟨⟨⟩, .scale (.real (-1)), .identity, .never⟩
    ∃ solution,
      ((Solver.plain 1 .preconditioned).solve cs (entries !₂[3, 4]) 5).result = .ok solution ∧
      ((Solver.plain 1 .unpreconditioned).solve cs (entries !₂[3, 4]) 5).result = .ok solution := by
  intro cs
  have hH : Serves (fun x : RealVector 2 => (-1 : ℝ) • x) cs.operator := Rule.serves_scale (-1)
  have hP : Serves (id : RealVector 2 → RealVector 2) cs.preconditioner := Rule.serves_identity
  have hr : 0 ≤ (Solver.plain 1 .preconditioned).settings.radius := Exact.real_le.mpr zero_le_one
  let solver := Solver.plain 1 .unpreconditioned
  have same : ((solver.setDirectionNorm .preconditioned).solve cs (entries !₂[3, 4]) 5).result =
      ((solver.setDirectionNorm .unpreconditioned).solve cs (entries !₂[3, 4]) 5).result :=
    (solve_eq_of_identity (isSymmetric_smul_id (-1)) hH.computes hP.computes).1
  obtain ⟨solution, h⟩ := Solver.solve_total hr hH hP
  exact ⟨solution, h, same.symm.trans h⟩

end

end TrustRegion
