import TrustRegion.Proofs.Exact.Model
import TrustRegion.Proofs.Exact.Scaling
import TrustRegion.Proofs.Verdicts

/-! What the convergence test is asked about is the residual of the step that is returned, so that
its verdict of convergence certifies that step and denies all earlier ones. -/
namespace TrustRegion

open scoped RealInnerProductSpace
open RunM

/-- The norm of a residual that the convergence test is asked about, where `g` preconditions. -/
noncomputable def ResidualNorm.measure {E : Type} [NormedAddCommGroup E] [InnerProductSpace ℝ E]
    (norm : ResidualNorm) (g : E → E) (r : E) : ℝ :=
  match norm with
  | .preconditioned => ‖g r‖
  | .unpreconditioned => ‖r‖
  | .natural => √⟪r, g r⟫

/-- The largest norm that is taken for convergence where the initial one is `x`. -/
noncomputable def Tolerances.limit (t : Tolerances Exact) (x : ℝ) : ℝ :=
  max (t.rtol.toReal * x) t.atol.toReal

section Test

variable {t : Tolerances Exact} {test : ResidualTest Exact} {x limit : ℝ}

theorem Tolerances.eq_real_of_valid (valid : t.validate = .ok ()) :
    ∃ rtol atol dtol : ℝ, t = ⟨.real rtol, .real atol, .real dtol⟩ := by
  have hreal (name : String) {value : Exact} (hmem : (name, value) ∈ t.named) :
      ∃ x : ℝ, value = .real x := by
    cases value with
    | real x => exact ⟨x, rfl⟩
    | undefined =>
      unfold validate at valid
      split at valid
      · cases valid
      · next hnone =>
        have := List.find?_eq_none.mp hnone _ hmem
        simp at this
  obtain ⟨rtol, hrtol⟩ : ∃ x : ℝ, t.rtol = .real x := hreal "rtol" (by simp [named])
  obtain ⟨atol, hatol⟩ : ∃ x : ℝ, t.atol = .real x := hreal "atol" (by simp [named])
  obtain ⟨dtol, hdtol⟩ : ∃ x : ℝ, t.dtol = .real x := hreal "dtol" (by simp [named])
  exact ⟨rtol, atol, dtol, by rw [← hrtol, ← hatol, ← hdtol]⟩

theorem ResidualTest.target_evaluate (valid : test.tolerances.validate = .ok ()) (x : ℝ) :
    (test.evaluate 0 (.real x)).2.target = .real (test.tolerances.limit x) := by
  obtain ⟨rtol, atol, dtol, heq⟩ := Tolerances.eq_real_of_valid valid
  simp [evaluate, Tolerances.limit, heq, Exact.larger_real, Exact.toReal]

theorem ResidualTest.judge_converged_iff (htarget : test.target = .real limit) :
    (∃ why, test.judge (.real x) = .converged why) ↔ x ≤ limit := by
  unfold judge
  rw [htarget]
  simp only [Exact.isFinite_real, Bool.not_true, Bool.false_eq_true, ↓reduceIte, Exact.real_le]
  split
  · next hle =>
    split <;> simp [hle]
  · next hgt =>
    split <;> simp [hgt]

end Test

section Exact

variable {n m k : ℕ} {H P C : Type} {s : Settings Exact} {A : RealVector n →ₗ[ℝ] RealVector n}
  {g : RealVector n → RealVector n} {r : RealVector n}

theorem residualNorm_eq {run run' : Run Exact (Euclidean Exact) H P C} {known? : Option Exact}
    {v : Exact} (nonneg : 0 ≤ ⟪r, g r⟫) (hknown : ∀ u, known? = some u → u = .real ‖r‖)
    (h : residualNorm s (entries r) (entries (g r)) (.real ⟪r, g r⟫) known? run = .ok v run') :
    v = .real (s.residualNorm.measure g r) := by
  cases hs : s.residualNorm with
  | preconditioned =>
    simp only [residualNorm, hs, norm_entries] at h
    cases h
    rfl
  | unpreconditioned =>
    cases known? with
    | none =>
      simp only [residualNorm, hs, norm_entries] at h
      cases h
      rfl
    | some norm =>
      simp only [residualNorm, hs] at h
      cases h
      exact hknown v rfl
  | natural =>
    simp only [residualNorm, hs, Exact.sqrt_real nonneg] at h
    cases h
    rfl

variable [ActsOn (List Exact) H] [ActsOn (List Exact) P]

/-- A run about to solve a subproblem for the linear operator `A` with the preconditioner `g`. -/
structure Run.Faces (Q : Subproblem (RealVector n)) (s : Settings Exact) (m : ℕ)
    (A : RealVector n →ₗ[ℝ] RealVector n) (g : RealVector n → RealVector n)
    (run : Run Exact (Euclidean Exact) H P C) : Prop extends run.Begins Q where
  fits : Q.Fits s
  cap : Q.cap = min m n
  acts : Q.ActsBy A
  answers : ∀ r z, Q.Preconditions r z → z = g r

variable [ConvergenceTest Exact C] {Q : Subproblem (RealVector n)}
  {run₀ run run₁ run₂ : Run Exact (Euclidean Exact) H P C} {next : Iterate Exact (List Exact)}
  {outcome : Option Reason}

theorem Run.Commences.first_asks (begins : run₀.Begins Q)
    (answers : ∀ r z, Q.Preconditions r z → z = g r) {o : Start Exact (List Exact)}
    {phase : Phase (List Exact) (Iterate Exact (List Exact))}
    (starts : start (entries Q.rhs) run₀ = .ok o run₁) (nonneg : ¬ o.rz < 0)
    (goes : first s (entries Q.rhs) o run₁ = .ok phase run₂) :
    run₂.test =
      (ConvergenceTest.evaluate run₀.test 0 (.real (s.residualNorm.measure g Q.rhs))).2 := by
  obtain ⟨z, hz, rfl, -⟩ := start_lift starts begins
  obtain rfl := answers _ _ (Q.opens_le z hz)
  obtain ⟨norm, mid, hnorm, heq⟩ := inquiry_first goes
  -- The norm of `b` is not computed anew: it is taken to be the root of `b·b`.
  have hknown (u : Exact) (hu : some (Scalar.sqrt (.real ⟪Q.rhs, Q.rhs⟫)) = some u) :
      u = .real ‖Q.rhs‖ := by
    rw [Exact.sqrt_real real_inner_self_nonneg, ← norm_eq_sqrt_real_inner] at hu
    exact (Option.some.inj hu).symm
  have hmeasure : norm = .real (s.residualNorm.measure g Q.rhs) :=
    residualNorm_eq (not_lt.mp nonneg) hknown hnorm
  have hstart : run₁.test = run₀.test := congrArg Prod.fst (spares_start overlooks_inquiry starts)
  have htest : run₂.test = (ConvergenceTest.evaluate run₁.test 0 norm).2 := congrArg Prod.fst heq
  rw [htest, hstart, hmeasure]

theorem FullStep.asks {it : Iterate ℝ (RealVector n)} {q : ℝ} (fits : Q.Fits s)
    (answers : ∀ r z, Q.Preconditions r z → z = g r) (reach : Q.Reaches k it q)
    (hrun : run.Obeys Q.Acts Q.Preconditions)
    (hf : run.figures = Figures.lift ⟨√it.stepSq, q, k + 1⟩)
    (full : FullStep s it.lift run next run₁)
    (reviews : review s it.lift next run₁ = .ok outcome run₂) :
    next.step = entries it.nextStep ∧
      (outcome = some .indefinitePreconditioner ∨
        ∃ verdict, run₂.inquiry.2 =
            (k + 1, .real (s.residualNorm.measure g it.nextResidual)) :: run.inquiry.2 ∧
          ConvergenceTest.evaluate run.test (k + 1)
            (.real (s.residualNorm.measure g it.nextResidual)) = (verdict, run₂.test) ∧
          (outcome = verdict.reason? ∨ verdict = .iterating ∧ outcome = some .breakdown)) := by
  obtain ⟨-, z, hz, rfl, -, hf₁⟩ := full.lift fits reach hrun hf
  obtain rfl := answers _ _ hz
  have hstep : run₁.inquiry = (run.enter it.lift).inquiry :=
    spares_advance overlooks_inquiry full.advances
  have hit : run₁.figures.iterations = k + 1 := congrArg Figures.iterations hf₁
  refine ⟨rfl, ?_⟩
  obtain ⟨-, hout, -⟩ | ⟨norm, mid, nonneg, hnorm, hasked, hout⟩ := inquiry_review reviews
  · exact .inl hout
  · have hknown (u : Exact) (hu : none = some u) : u = .real ‖it.nextResidual‖ := by cases hu
    have hmeasure : norm = .real (s.residualNorm.measure g it.nextResidual) :=
      residualNorm_eq (not_lt.mp nonneg) hknown hnorm
    have htest : run₁.test = run.test := congrArg Prod.fst hstep
    rw [hmeasure, hit, hstep, htest] at hasked
    rw [hmeasure, hit, htest] at hout
    have hnext := congrArg Prod.fst hasked
    exact .inr ⟨_, congrArg Prod.snd hasked, Prod.ext rfl hnext.symm, hout⟩

/-- For a linear operator a review asks about the residual of the step that it has come to. -/
theorem Run.Faces.review_asks {it : Iterate Exact (List Exact)} (faces : run₀.Faces Q s m A g)
    (pass : ReachesPass s (entries Q.rhs) m run₀ k it run) (full : FullStep s it run next run₁)
    (reviews : review s it next run₁ = .ok outcome run₂) :
    ∃ x : RealVector n, next.step = entries x ∧
      (outcome = some .indefinitePreconditioner ∨
        ∃ verdict, run₂.inquiry.2 =
            (k + 1, .real (s.residualNorm.measure g (Q.rhs - A x))) :: run.inquiry.2 ∧
          ConvergenceTest.evaluate run.test (k + 1)
            (.real (s.residualNorm.measure g (Q.rhs - A x))) = (verdict, run₂.test) ∧
          (outcome = verdict.reason? ∨ verdict = .iterating ∧ outcome = some .breakdown)) := by
  obtain ⟨it, q, reach, rfl, hrun, hf⟩ := pass.exists_reaches faces.fits faces.cap faces.toCommences
  obtain ⟨hstep, hout⟩ := full.asks faces.fits faces.answers reach hrun hf reviews
  have hres : it.nextResidual = Q.rhs - A it.nextStep :=
    (reach.solves faces.acts).nextResidual_eq
  rw [hres] at hout
  exact ⟨it.nextStep, hstep, hout⟩

end Exact

section Run

variable {n m k : ℕ} {H P : Type} [ActsOn (List Exact) H] [ActsOn (List Exact) P]
  {s : Settings Exact} {A : RealVector n →ₗ[ℝ] RealVector n} {g : RealVector n → RealVector n}
  {Q : Subproblem (RealVector n)} {run₀ run : Run Exact (Euclidean Exact) H P (ResidualTest Exact)}
  {it : Iterate Exact (List Exact)} {stop : Stop (List Exact)}

theorem ReachesPass.test_eq_begun (pass : ReachesPass s (entries Q.rhs) m run₀ k it run)
    (faces : run₀.Faces Q s m A g) :
    run.test = (run₀.test.evaluate 0 (.real (s.residualNorm.measure g Q.rhs))).2 := by
  induction pass with
  | first starts _ nonneg goes =>
    exact faces.toCommences.first_asks faces.answers starts nonneg goes
  | @next k it next it' run run₁ run₂ run₃ pass full reviews _ turns ih =>
    have hturn : run₃.test = run₂.test := congrArg Prod.fst (spares_turn overlooks_inquiry turns)
    obtain ⟨x, -, hout⟩ := faces.review_asks pass full reviews
    obtain hstop | ⟨verdict, -, hasked, -⟩ := hout
    · cases hstop
    · have htest : run.test = run₂.test := congrArg Prod.snd hasked
      rw [hturn, ← htest, ih]

/-- A review stops as converged exactly if the residual is within the limit. -/
theorem Run.Faces.review_converges {next : Iterate Exact (List Exact)} {outcome : Option Reason}
    {run₁ run₂ : Run Exact (Euclidean Exact) H P (ResidualTest Exact)}
    (faces : run₀.Faces Q s m A g) (valid : run₀.test.tolerances.validate = .ok ())
    (pass : ReachesPass s (entries Q.rhs) m run₀ k it run) (full : FullStep s it run next run₁)
    (reviews : review s it next run₁ = .ok outcome run₂) :
    ∃ x : RealVector n, next.step = entries x ∧
      (outcome = some .indefinitePreconditioner ∨
        run₂.inquiry.2 =
          (k + 1, .real (s.residualNorm.measure g (Q.rhs - A x))) :: run.inquiry.2 ∧
        ((∃ why, outcome = some (.converged why)) ↔ s.residualNorm.measure g (Q.rhs - A x) ≤
          run₀.test.tolerances.limit (s.residualNorm.measure g Q.rhs))) := by
  obtain ⟨x, hx, hout⟩ := faces.review_asks pass full reviews
  refine ⟨x, hx, ?_⟩
  obtain hindefinite | ⟨verdict, hlast, hasked, hout⟩ := hout
  · exact .inl hindefinite
  · have hverdict : run.test.judge (.real (s.residualNorm.measure g (Q.rhs - A x))) = verdict :=
      congrArg Prod.fst hasked
    have htarget : run.test.target =
        .real (run₀.test.tolerances.limit (s.residualNorm.measure g Q.rhs)) := by
      rw [pass.test_eq_begun faces]
      exact ResidualTest.target_evaluate valid _
    refine .inr ⟨hlast, ?_⟩
    rw [← ResidualTest.judge_converged_iff htarget, hverdict]
    exact exists_congr fun why => Verdict.converged_iff hout

theorem ReachesPass.limit_lt (pass : ReachesPass s (entries Q.rhs) m run₀ (k + 1) it run)
    (faces : run₀.Faces Q s m A g) (valid : run₀.test.tolerances.validate = .ok ()) :
    ∃ d : RealVector n, it.step = entries d ∧
      run₀.test.tolerances.limit (s.residualNorm.measure g Q.rhs) <
        s.residualNorm.measure g (Q.rhs - A d) := by
  cases pass with
  | @next _ _ next _ _ _ _ _ pass full reviews _ turns =>
    have hstep : it.step = next.step := yields_turn turns
    obtain ⟨d, hd, hout⟩ := faces.review_converges valid pass full reviews
    refine ⟨d, hstep.trans hd, ?_⟩
    obtain hstop | ⟨-, hiff⟩ := hout
    · cases hstop
    · rw [← not_le, ← hiff]
      rintro ⟨why, hwhy⟩
      cases hwhy

/-- A solve that ends after a full step, without a cut, has last asked about the residual of its
step, and ends as converged exactly if that is within the limit. -/
theorem Ends.converged_iff (ends : Ends s (entries Q.rhs) m run₀ (k + 1) stop run)
    (faces : run₀.Faces Q s m A g) (valid : run₀.test.tolerances.validate = .ok ())
    (uncut : stop.reason ≠ .constrainedStep) (definite : stop.reason ≠ .indefinitePreconditioner) :
    ∃ x : RealVector n, stop.step = entries x ∧
      (Event.residuals run.latest).head? =
        some (k + 1, .real (s.residualNorm.measure g (Q.rhs - A x))) ∧
      ((∃ why, stop.reason = .converged why) ↔ s.residualNorm.measure g (Q.rhs - A x) ≤
        run₀.test.tolerances.limit (s.residualNorm.measure g Q.rhs)) := by
  obtain ⟨it, next, run₁, run₂, run₃, outcome, pass, full, reviews, hstep, hlatest, hend⟩ :=
    ends.reviewed uncut
  obtain ⟨x, hx, hout⟩ := faces.review_converges valid pass full reviews
  obtain rfl | ⟨hlast, hiff⟩ := hout
  · obtain hend | ⟨hend, -⟩ := hend
    · exact absurd (Option.some.inj hend).symm definite
    · cases hend
  · have hresiduals : Event.residuals run.latest = run₃.inquiry.2 := congrArg Prod.snd hlatest
    refine ⟨x, hstep.trans hx, ?_, ?_⟩
    · rw [hresiduals, hlast]
      rfl
    · rw [← hiff]
      apply exists_congr
      intro why
      obtain rfl | ⟨rfl, unsaid⟩ := hend
      · exact Option.some_inj.symm
      · have hunsaid : stop.reason ≠ .converged why := by
          intro hreason
          exact unsaid (.converged why) (congrArg some hreason.symm)
        simp [hunsaid]

theorem Subproblem.Ends.iterations_eq {E : Type} [NormedAddCommGroup E] [InnerProductSpace ℝ E]
    {Q : Subproblem E} {x : E} {f : Figures ℝ} {why : Success}
    (h : Q.Ends k (.converged why) x f) : f.iterations = k := by
  cases h with
  | inside _ _ _ stops => cases stops with | converged => rfl

theorem Collaborators.begin_faces {cs : Collaborators (Euclidean Exact) H P (ResidualTest Exact)}
    {b : RealVector n} (valid : s.validate = .ok ()) (hH : Computes A cs.operator)
    (hP : Computes g cs.preconditioner) :
    cs.begin.Faces (s.subproblem b m (fun x w => w = A x) fun r z => z = g r) s m A g := by
  have obeys : cs.begin.Obeys (fun x w => w = A x) fun r z => z = g r := ⟨hH.answers, hP.answers⟩
  exact
    { obeys.begins rfl with
      fits := Settings.subproblem_fits valid
      cap := rfl
      acts := fun _ _ hw => hw
      answers := fun _ _ hz => hz }

/-- In exact arithmetic, for a linear operator and any function as the preconditioner, a solve that
ends as converged under the residual test has certified its step: the norm of the residual of that
step is reported and within the limit, and that of no step of an earlier iteration is. Pass `i`
starts from the step that iteration `i` has come to. -/
theorem solve_converged_certifies {solver : Solver Exact}
    {cs : Collaborators (Euclidean Exact) H P (ResidualTest Exact)} {b : RealVector n}
    {solution : Solution Exact (List Exact)} {why : Success}
    (valid : cs.test.tolerances.validate = .ok ()) (hH : Computes A cs.operator)
    (hP : Computes g cs.preconditioner)
    (h : (solver.solve cs (entries b) m).result = .ok solution)
    (hwhy : solution.reason = .converged why) :
    ∃ x : RealVector n, solution.step = entries x ∧
      solver.settings.residualNorm.measure g (b - A x) ≤
        cs.test.tolerances.limit (solver.settings.residualNorm.measure g b) ∧
      solution.residualNorm? = some (.real (solver.settings.residualNorm.measure g (b - A x))) ∧
      ∀ i, 1 ≤ i → i < solution.iterations →
        (∃ it run, ReachesPass solver.settings (entries b) m cs.begin i it run) ∧
        ∀ it run, ReachesPass solver.settings (entries b) m cs.begin i it run →
          ∃ d : RealVector n, it.step = entries d ∧
            cs.test.tolerances.limit (solver.settings.residualNorm.measure g b) <
              solver.settings.residualNorm.measure g (b - A d) := by
  obtain ⟨hv, k, stop, run, ends, hstep, hreason, -, -, hit, -, hnorm⟩ := Solver.solve_eq_ok h
  have faces := Collaborators.begin_faces (b := b) (m := m) hv hH hP
  have hstop : stop.reason = .converged why := hreason.symm.trans hwhy
  obtain ⟨k, it, next, run₁, run₂, run₃, rfl, pass, -⟩ :=
    ends.of_verdict (v := .converged why) (by rw [hstop]; rfl)
  obtain ⟨x, hx, hlast, hiff⟩ :=
    ends.converged_iff faces valid (by simp [hstop]) (by simp [hstop])
  obtain ⟨_, f, real, -, hf⟩ := ends.exists_ends faces.fits faces.cap faces.toCommences
  have hiterations : solution.iterations = k + 1 := by
    rw [hstop] at real
    rw [hit, hf]
    exact real.iterations_eq
  refine ⟨x, hstep.trans hx, hiff.mp ⟨why, hstop⟩, ?_, ?_⟩
  · rw [hnorm, hlast]
    rfl
  · intro i hi hlt
    rw [hiterations] at hlt
    refine ⟨pass.exists_of_le (Nat.le_of_lt_succ hlt), fun it run earlier => ?_⟩
    obtain ⟨j, rfl⟩ : ∃ j, i = j + 1 := Nat.exists_eq_succ_of_ne_zero (by omega)
    exact earlier.limit_lt faces valid

end Run

section Scaling

variable {E : Type} [NormedAddCommGroup E] [InnerProductSpace ℝ E] {Q : Subproblem E} {c p : ℝ}

theorem Subproblem.Reaches.nextResidual_of_scaling {k : ℕ} {it : Iterate ℝ E} {q : ℝ}
    (h : Q.Reaches k it q) (acts : ∀ x w, Q.Acts x w → w = c • x)
    (answers : ∀ r z, Q.Preconditions r z → z = p • r) : k = 0 ∧ it.nextResidual = 0 := by
  induction h with
  | @first z w hz hw _ curved =>
    obtain rfl := answers _ _ (Q.opens_le z hz)
    obtain rfl := acts _ _ hw
    simp only [real_inner_smul_left, real_inner_smul_right] at curved
    have hcurved : c * p * (p * ⟪Q.rhs, Q.rhs⟫) ≠ 0 := by
      rw [mul_assoc]
      exact curved.ne'
    obtain ⟨hcp, hprod⟩ := mul_ne_zero_iff.mp hcurved
    have hlength : (Iterate.opening Q.norm Q.rhs (p • Q.rhs) (c • p • Q.rhs)).fullLength =
        (c * p)⁻¹ := by
      simp only [Iterate.fullLength, Iterate.opening, real_inner_smul_left, real_inner_smul_right]
      rw [← mul_assoc c p, div_mul_cancel_right₀ hprod]
    refine ⟨rfl, ?_⟩
    rw [Iterate.nextResidual, hlength]
    simp only [Iterate.opening]
    rw [smul_smul c p, inv_smul_smul₀ hcp, sub_self]
  | @next k it q z w pass inside hz prev pos below hw curved ih =>
    have hzero : (it.stepped Q.norm z).rz = 0 := by
      change ⟪it.nextResidual, z⟫ = 0
      rw [ih.2, inner_zero_left]
    exact absurd hzero pos.ne'

theorem Subproblem.Ends.of_scaling {k : ℕ} {reason : Reason} {x : E} {f : Figures ℝ}
    (h : Q.Ends k reason x f) (acts : ∀ x w, Q.Acts x w → w = c • x)
    (answers : ∀ r z, Q.Preconditions r z → z = p • r) (hc : 0 < c) (hp : 0 < p)
    (hb : Q.rhs ≠ 0) (hr : Q.radius = 0) :
    k = 1 ∧ c • x = Q.rhs ∧ reason ≠ .constrainedStep ∧ reason ≠ .indefinitePreconditioner := by
  have hbb : 0 < ⟪Q.rhs, Q.rhs⟫ := real_inner_self_pos.mpr hb
  have hopens {z : E} (hz : Q.Opens z) : z = p • Q.rhs := answers _ _ (Q.opens_le z hz)
  have hcurved {z w : E} (hz : Q.Opens z) (hw : Q.Acts z w) : 0 < ⟪z, w⟫ := by
    rw [acts _ _ hw, hopens hz]
    simp only [real_inner_smul_left, real_inner_smul_right]
    positivity
  cases h with
  | indefinite hz neg =>
    rw [hopens hz, real_inner_smul_right] at neg
    exact absurd (mul_pos hp hbb) neg.not_gt
  | leaves hz _ hw flat => exact absurd (hcurved hz hw) flat.not_gt
  | fallsBack hz _ hw flat => exact absurd (hcurved hz hw) flat.not_gt
  | boundary _ constrained => exact absurd hr constrained.ne'
  | @inside k _ it _ z _ pass _ hz stops =>
    obtain ⟨rfl, hzero⟩ := pass.nextResidual_of_scaling acts answers
    have hacts : Q.ActsBy (c • LinearMap.id) := acts
    have hsolved : c • it.nextStep = Q.rhs := by
      have hres := (pass.solves hacts).nextResidual_eq
      rw [hzero] at hres
      exact (sub_eq_zero.mp hres.symm).symm
    refine ⟨rfl, hsolved, stops.ne_constrainedStep, ?_⟩
    rintro rfl
    cases stops with
    | indefinite neg =>
      have hneg : ⟪it.nextResidual, z⟫ < 0 := neg
      rw [hzero, inner_zero_left] at hneg
      exact lt_irrefl _ hneg

end Scaling

section

variable {n : ℕ}

theorem Solver.converges_tested {c p : ℝ} {t : Tolerances Exact} {b : RealVector n} (hc : 0 < c)
    (hp : 0 < p) (hb : b ≠ 0) (valid : t.validate = .ok ()) (hlimit : 0 ≤ t.limit ‖b‖)
    (norm : DirectionNorm) (m : ℕ) :
    ∃ solution why,
      ((Solver.plain 0 norm).solve (.tested c p t) (entries b) m).result = .ok solution ∧
        solution.reason = .converged why := by
  have hradius : 0 ≤ (Solver.plain 0 norm).settings.radius := Exact.real_le.mpr le_rfl
  have hH : Serves (c • LinearMap.id : RealVector n →ₗ[ℝ] RealVector n)
      (Collaborators.tested c p t).operator := Rule.serves_scale c
  have hP : Serves (p • · : RealVector n → RealVector n)
      (Collaborators.tested c p t).preconditioner := Rule.serves_scale p
  obtain ⟨solution, h⟩ := Solver.solve_total (b := b) (m := m) hradius hH hP
  obtain ⟨hv, k, stop, run, ends, -, hreason, -⟩ := Solver.solve_eq_ok h
  have faces := Collaborators.begin_faces (b := b) (m := m) hv hH.computes hP.computes
  obtain ⟨x, f, real, hx, -⟩ := ends.exists_ends faces.fits faces.cap faces.toCommences
  obtain ⟨rfl, hsolved, uncut, definite⟩ :=
    real.of_scaling faces.acts faces.answers hc hp hb rfl
  obtain ⟨x', hx', -, hiff⟩ := ends.converged_iff faces valid uncut definite
  obtain rfl : x' = x := entries_injective (hx'.symm.trans hx)
  have hzero : b - c • x' = 0 := sub_eq_zero.mpr hsolved.symm
  have hle : ‖b - c • x'‖ ≤ t.limit ‖b‖ := by
    rw [hzero, norm_zero]
    exact hlimit
  obtain ⟨why, hwhy⟩ := hiff.mpr hle
  exact ⟨solution, why, h, hreason.trans hwhy⟩

/-- The operator `2 I`, without a preconditioner, for half the norm of the right-hand side. -/
theorem solve_converged_certifies_scaling :
    ∃ solution why, ((Solver.plain 0 .unpreconditioned).solve
        (.tested 2 1 ⟨.real (1 / 2), .real 1, .real 10⟩) (entries !₂[3, 4]) 5).result =
          .ok solution ∧
      solution.reason = .converged why ∧ ∃ x : RealVector 2, solution.step = entries x ∧
        ‖!₂[3, 4] - (2 : ℝ) • x‖ ≤ max (1 / 2 * ‖(!₂[3, 4] : RealVector 2)‖) 1 ∧
        solution.residualNorm? = some (.real ‖!₂[3, 4] - (2 : ℝ) • x‖) := by
  have valid : (⟨.real (1 / 2), .real 1, .real 10⟩ : Tolerances Exact).validate = .ok () := by
    simp [Tolerances.validate, Tolerances.named, List.find?]
    norm_num
  have hlimit : 0 ≤ (⟨.real (1 / 2), .real 1, .real 10⟩ : Tolerances Exact).limit
      ‖(!₂[3, 4] : RealVector 2)‖ := zero_le_one.trans (le_max_right _ _)
  have hH : Computes ((2 : ℝ) • LinearMap.id : RealVector 2 →ₗ[ℝ] RealVector 2)
      (Collaborators.tested 2 1 ⟨.real (1 / 2), .real 1, .real 10⟩).operator :=
    (Rule.serves_scale 2).computes
  obtain ⟨solution, why, h, hwhy⟩ := Solver.converges_tested two_pos one_pos three_four_ne_zero
    valid hlimit .unpreconditioned 5
  obtain ⟨x, hx, hle, hnorm, -⟩ :=
    solve_converged_certifies valid hH (Rule.serves_scale 1).computes h hwhy
  exact ⟨solution, why, h, hwhy, x, hx, hle, hnorm⟩

end

end TrustRegion
