import TrustRegion.Proofs.Exact.Solve

/-! Collaborators that never fail: in exact arithmetic a solve with them returns a solution. -/
namespace TrustRegion

open RunM

variable {n : ℕ} {f g : RealVector n → RealVector n}

section Serves

variable {A : Type} [ActsOn (List Exact) A] {a : A}

/-- An object that leaves the value of `f` and never fails. -/
def Serves (f : RealVector n → RealVector n) (a : A) : Prop :=
  ∀ a', Becomes n a a' → ∀ x y : RealVector n,
    (ActsOn.apply a' (entries x) (entries y)).1 = { content := entries (f x) }

theorem Serves.computes (h : Serves f a) : Computes f a :=
  fun a' ha x y _ => congrArg Written.content (h a' ha x y)

theorem Serves.apply (h : Serves f a) (x y : RealVector n) :
    Serves f (ActsOn.apply a (entries x) (entries y)).2 :=
  fun a' ha => h a' ((Becomes.refl.apply x y).trans ha)

end Serves

variable {H P C : Type} [ActsOn (List Exact) H] [ActsOn (List Exact) P]
  {run run' : Run Exact (Euclidean Exact) H P C} {s : Settings Exact}
  {Q : Subproblem (RealVector n)} {x y z : RealVector n}

structure Run.Serves (f g : RealVector n → RealVector n)
    (run : Run Exact (Euclidean Exact) H P C) : Prop where
  operator : TrustRegion.Serves f run.operator
  preconditioner : TrustRegion.Serves g run.preconditioner

theorem Run.Serves.of_eq (h : run.Serves f g) (ho : run'.operator = run.operator)
    (hp : run'.preconditioner = run.preconditioner) : run'.Serves f g :=
  ⟨ho ▸ h.operator, hp ▸ h.preconditioner⟩

theorem operate_meets (h : run.Serves f g) :
    (operate (entries x) (entries y)).Meets run fun c run' =>
      c = entries (f x) ∧ run'.Serves f g := by
  simp only [Meets, operate, Run.ofWritten, h.operator _ .refl x y]
  exact ⟨_, _, rfl, rfl, h.operator.apply x y, h.preconditioner⟩

theorem precondition_meets (h : run.Serves f g) :
    (precondition (entries x) (entries y)).Meets run fun c run' =>
      c = entries (g x) ∧ run'.Serves f g := by
  simp only [Meets, precondition, Run.ofWritten, h.preconditioner _ .refl x y]
  exact ⟨_, _, rfl, rfl, h.operator, h.preconditioner.apply x y⟩

theorem start_meets (h : run.Serves f g) :
    (start (entries x)).Meets run fun b run' =>
      b = (Start.opening x (g x)).lift ∧ run'.Serves f g := by
  refine .step (zerosLike_entries _ _) (.step (copy_entries _ _ _) (.step (dot_entries _ _ _) ?_))
  rw [if_pos (Exact.isFinite_real)]
  refine .bind (precondition_meets (h.of_eq rfl rfl)) ?_
  intro c mid ⟨hc, hmid⟩
  subst hc
  exact .step (dot_entries _ _ _) (meets_pure ⟨rfl, hmid.of_eq rfl rfl⟩)

theorem gradientStep_meets (h : run.Serves f g) (fits : Q.Fits s) :
    (gradientStep s (entries Q.rhs) (.real (inner ℝ Q.rhs Q.rhs)) (entries x) (entries y)).Meets run
      fun _ _ => True := by
  unfold gradientStep
  rw [fits.radius, fits.radiusSq]
  split
  · exact meets_pure trivial
  · refine .step (setStepNorm_apply _ _) ?_
    rw [Q.gradientLength_lift, Exact.half_eq, Exact.real_neg]
    refine .step (axpy_entries _ _ _ _) (.bind (operate_meets (h.of_eq rfl rfl)) ?_)
    intro c mid ⟨hc, _⟩
    subst hc
    exact .step (aypx_entries _ _ _ _) (.step (dot_entries _ _ _)
      (.step (mapObjective_apply _ _) (.step (countIteration_apply _) (meets_pure trivial))))

omit [ActsOn (List Exact) H] [ActsOn (List Exact) P] in
theorem boundaryStep_meets (τ curvature rz : Exact) :
    (boundaryStep s τ curvature rz (entries x) (entries y)).Meets run fun _ _ => True := by
  have haxpy (run : Run Exact (Euclidean Exact) H P C) :
      axpy τ (entries x) (entries y) run = .ok (Dense.combine τ (entries x) 1 (entries y))
        (run.log (.called (.space .axpy) none)) := by
    simp [axpy, VectorSpace.axpy, Euclidean.axpy, sameLength, Run.ofWritten]
  exact .step (setStepNorm_apply _ _) (.step (haxpy _) (.step (mapObjective_apply _ _)
    (meets_pure trivial)))

theorem leave_meets {it : Iterate Exact (List Exact)} (h : run.Serves f g) (fits : Q.Fits s)
    (hstep : it.step = entries x) (hdirection : it.direction = entries y)
    (hproduct : it.product = entries z) :
    (leave s (entries Q.rhs) (.real (inner ℝ Q.rhs Q.rhs)) it).Meets run fun _ _ => True := by
  unfold leave
  rw [hstep, hdirection, hproduct]
  split
  · split
    · exact boundaryStep_meets _ _ _
    · exact gradientStep_meets h fits
  · exact meets_pure trivial

theorem residualNorm_meets (h : run.Serves f g) (rz : Exact) (known? : Option Exact) :
    (residualNorm s (entries x) (entries z) rz known?).Meets run fun _ run' =>
      run'.Serves f g := by
  unfold residualNorm
  split
  · exact ⟨_, _, norm_entries _ _, h.of_eq rfl rfl⟩
  · split
    · exact meets_pure h
    · exact ⟨_, _, norm_entries _ _, h.of_eq rfl rfl⟩
  · exact meets_pure h

theorem judge_meets [ConvergenceTest Exact C] (h : run.Serves f g) (i : ℕ) (norm : Exact) :
    (judge i norm).Meets run fun _ run' => run'.Serves f g :=
  .step (record_apply _ _) ⟨_, _, rfl, h.of_eq rfl rfl⟩

theorem first_meets [ConvergenceTest Exact C] (h : run.Serves f g) (fits : Q.Fits s) :
    (first s (entries Q.rhs) (Start.opening Q.rhs z).lift).Meets run fun phase run' =>
      ∀ it, phase = .going it → run'.Serves f g := by
  refine .bind (residualNorm_meets h _ _) fun _ run₁ h₁ => .bind (judge_meets h₁ _ _)
    fun _ run₂ h₂ => .step (note_apply _ _) (.step (copy_entries _ _ _)
    (.bind (operate_meets (h₂.of_eq rfl rfl)) ?_))
  intro c run₃ ⟨hc, h₃⟩
  subst hc
  refine .step (countIteration_apply _) (.step (dot_entries _ _ _) ?_)
  rw [if_neg (by simp)]
  split
  · split
    · exact .step (pure_apply _ _) (.step (note_apply _ _)
        (.bind (leave_meets (h₃.of_eq rfl rfl) fits rfl rfl rfl)
          fun _ _ _ => meets_pure (by rintro _ ⟨⟩)))
    · exact .step (dot_entries _ _ _) (.step (note_apply _ _)
        (.bind (leave_meets (h₃.of_eq rfl rfl) fits rfl rfl rfl)
          fun _ _ _ => meets_pure (by rintro _ ⟨⟩)))
  · split
    · exact .step (pure_apply _ _) (meets_pure fun _ _ => h₃.of_eq rfl rfl)
    · exact .step (dot_entries _ _ _) (meets_pure fun _ _ => h₃.of_eq rfl rfl)

theorem advance_meets {it : Iterate ℝ (RealVector n)} (h : run.Serves f g)
    (hκ : it.curvature ≠ 0) : (advance s it.lift).Meets run fun _ run' => run'.Serves f g := by
  unfold advance
  rw [it.alpha_lift hκ, Exact.real_neg]
  refine .step (axpy_entries _ _ _ _) (.step (axpy_entries _ _ _ _)
    (.bind (precondition_meets (h.of_eq rfl rfl)) ?_))
  intro c run₁ ⟨hc, h₁⟩
  subst hc
  split
  · exact .step (pure_apply _ _) (.step (setStepNorm_apply _ _) (.step (mapObjective_apply _ _)
      (.step (dot_entries _ _ _) (meets_pure (h₁.of_eq rfl rfl)))))
  · exact .step (dot_entries _ _ _) (.step (setStepNorm_apply _ _) (.step (mapObjective_apply _ _)
      (.step (dot_entries _ _ _) (meets_pure (h₁.of_eq rfl rfl)))))

theorem review_meets [ConvergenceTest Exact C] {it next : Iterate ℝ (RealVector n)}
    (h : run.Serves f g) : (review s it.lift next.lift).Meets run fun _ run' =>
      run'.Serves f g := by
  unfold review
  split
  · exact .step (note_apply _ _) (meets_pure (h.of_eq rfl rfl))
  · refine .bind (residualNorm_meets h _ _) fun _ run₁ h₁ => .step (iterations_apply _)
      (.bind (judge_meets h₁ _ _) fun verdict run₂ h₂ => ?_)
    cases verdict with
    | converged why => exact .step (note_apply _ _) (meets_pure (h₂.of_eq rfl rfl))
    | diverged why => exact .step (note_apply _ _) (meets_pure (h₂.of_eq rfl rfl))
    | iterating =>
      refine .step (iterations_apply _) (.step (note_apply _ _) ?_)
      split
      · exact .step (note_apply _ _) (meets_pure (h₂.of_eq rfl rfl))
      · exact meets_pure (h₂.of_eq rfl rfl)

theorem turn_meets {it next : Iterate ℝ (RealVector n)} (h : run.Serves f g) (prev : it.rz ≠ 0) :
    (turn s it.lift next.lift).Meets run fun _ run' => run'.Serves f g := by
  unfold turn
  rw [it.beta_lift prev]
  refine .step (aypx_entries _ _ _ _) ?_
  split
  all_goals
    first
    | refine .step (pure_apply _ _) ?_
    | refine .step (dot_entries _ _ _) (.step (dot_entries _ _ _) (.step (pure_apply _ _) ?_))
    refine .bind (operate_meets (h.of_eq rfl rfl)) ?_
    intro c run₁ ⟨hc, h₁⟩
    subst hc
    refine .step (dot_entries _ _ _) (.step (countIteration_apply _) ?_)
    rw [if_neg (by simp)]
    split
    · exact .step (note_apply _ _) (meets_pure (h₁.of_eq rfl rfl))
    · exact meets_pure (h₁.of_eq rfl rfl)

omit [ActsOn (List Exact) H] [ActsOn (List Exact) P] in
theorem truncate_meets (it : Iterate ℝ (RealVector n)) :
    (truncate s it.lift).Meets run fun _ _ => True := by
  refine .step (note_apply _ _) ?_
  split
  · exact boundaryStep_meets _ _ _
  · exact meets_pure trivial

section Solve

variable [ConvergenceTest Exact C] {b : RealVector n} {m : ℕ}
  {run₀ : Run Exact (Euclidean Exact) H P C}

theorem ReachesPass.meets (remaining : ℕ) {k : ℕ} {it : Iterate Exact (List Exact)}
    {run : Run Exact (Euclidean Exact) H P C} (hr : 0 ≤ s.radius) (h₀ : run₀.Serves f g)
    (hf₀ : run₀.figures = Figures.lift ⟨0, 0, 0⟩)
    (pass : ReachesPass s (entries b) m run₀ k it run) (hrun : run.Serves f g)
    (left : remaining = iterationCap (entries b) m run₀ - (k + 1)) :
    (passes s remaining it).Meets run fun _ _ => True := by
  have fits : (s.subproblem b m (fun x w => w = f x) fun x z => z = g x).Fits s :=
    Settings.subproblem_fits_of_nonneg hr
  obtain ⟨it, q, reach, rfl, hobeys, hf⟩ :=
    pass.lift fits ⟨h₀.operator.computes.answers, h₀.preconditioner.computes.answers⟩ hf₀
  have hκ := reach.curvature_pos.ne'
  rw [passes.eq_def]
  refine .step (iterations_apply _) (.step (note_apply _ _) ?_)
  simp only [Bool.and_eq_true, decide_eq_true_eq]
  split
  · exact .bind (truncate_meets it) fun _ _ _ => meets_pure trivial
  · next inside =>
    have enters : (run.enter it.lift).Serves f g := hrun.of_eq rfl rfl
    obtain ⟨next, run₁, ha, h₁⟩ := advance_meets (s := s) enters hκ
    have full : FullStep s it.lift run next run₁ := ⟨inside, ha⟩
    obtain ⟨-, z, -, rfl, hobeys₁, -⟩ := full.lift fits reach hobeys hf
    obtain ⟨outcome, run₂, hreview, h₂⟩ := review_meets (s := s) h₁
    refine .step ha (.step hreview ?_)
    cases outcome with
    | some reason => exact meets_pure trivial
    | none =>
      cases remaining with
      | zero => exact .step (iterations_apply _) (.step (note_apply _ _) (meets_pure trivial))
      | succ remaining =>
        obtain ⟨-, -, prev, -⟩ := review_lift (k := k) hreview hobeys₁
        obtain ⟨phase, run₃, hturn, h₃⟩ := turn_meets (s := s) h₂ prev
        refine .step hturn ?_
        cases phase with
        | stopped reason step => exact meets_pure trivial
        | going it' =>
          exact ReachesPass.meets remaining hr h₀ hf₀
            (.next pass full hreview (by omega) hturn) h₃ (by omega)

theorem Solver.solve_total {solver : Solver Exact} {cs : Collaborators (Euclidean Exact) H P C}
    (hr : 0 ≤ solver.settings.radius) (hH : Serves f cs.operator)
    (hP : Serves g cs.preconditioner) :
    ∃ solution, (solver.solve cs (entries b) m).result = .ok solution := by
  obtain ⟨Q, rfl, fits⟩ : ∃ Q : Subproblem (RealVector n), Q.rhs = b ∧ Q.Fits solver.settings :=
    ⟨solver.settings.subproblem b m (fun x w => w = f x) fun x z => z = g x, rfl,
      Settings.subproblem_fits_of_nonneg hr⟩
  have hbegin : cs.begin.Serves f g := ⟨hH, hP⟩
  have hiterate : (iterate solver.settings (entries Q.rhs) m).Meets cs.begin fun _ _ => True := by
    obtain ⟨_, run₁, hstart, rfl, h₁⟩ := start_meets (x := Q.rhs) hbegin
    refine .step (dimension_apply _ _) (.step hstart ?_)
    rw [if_neg (by simp [Start.lift])]
    split
    · exact .step (note_apply _ _) (.bind (gradientStep_meets (h₁.of_eq rfl rfl) fits)
        fun _ _ _ => meets_pure trivial)
    · next nonneg =>
      obtain ⟨phase, run₂, hfirst, h₂⟩ := first_meets h₁ fits
      refine .step hfirst ?_
      cases phase with
      | stopped reason step => exact meets_pure trivial
      | going it =>
        exact ReachesPass.meets _ hr hbegin rfl (.first hstart rfl nonneg hfirst) (h₂ it rfl) rfl
  obtain ⟨stop, run, hrun, -⟩ := hiterate
  have hv : solver.settings.validate = .ok () := by
    unfold Settings.validate Settings.checkRadius
    rw [fits.radius]
    simp [fits.nonneg]
  simp only [solve, hv]
  rw [show iterate solver.settings (entries Q.rhs) m
    { cs with figures := .zero, latest := [] } = .ok stop run from hrun]
  exact ⟨_, rfl⟩

end Solve

end TrustRegion
