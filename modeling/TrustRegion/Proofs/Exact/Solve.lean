import TrustRegion.Proofs.Exact.Phases
import TrustRegion.Proofs.FullSteps

/-! Solves in exact arithmetic as solves of subproblems. -/
namespace TrustRegion

noncomputable section

variable {n : ℕ}

/-- The subproblem that settings stand for, with the answers that the collaborators give. -/
def Settings.subproblem (s : Settings Exact) (b : RealVector n) (m : ℕ)
    (act pre : RealVector n → RealVector n → Prop) : Subproblem (RealVector n) where
  rhs := b
  radius := s.radius.toReal
  norm := s.directionNorm
  cap := min m n
  Acts := act
  Preconditions := pre
  Opens := pre b
  opens_le _ h := h

variable {s : Settings Exact} {b : RealVector n} {m : ℕ}
  {act pre : RealVector n → RealVector n → Prop}

theorem Settings.subproblem_fits_of_nonneg (h : 0 ≤ s.radius) :
    (s.subproblem b m act pre).Fits s := by
  cases hs : s.radius with
  | undefined => cases hs ▸ h
  | real ρ =>
    refine ⟨by rw [hs]; simp [subproblem, hs, Exact.toReal], ?_, rfl⟩
    simpa [subproblem, hs, Exact.toReal] using h

theorem Settings.subproblem_fits (h : s.validate = .ok ()) :
    (s.subproblem b m act pre).Fits s := by
  unfold Settings.validate Settings.checkRadius at h
  split at h
  · cases h
  · next hr =>
    refine subproblem_fits_of_nonneg ?_
    cases hs : s.radius with
    | undefined => simp [hs] at hr
    | real ρ => simpa [hs] using hr

variable {H P C : Type} [ActsOn (List Exact) H] [ActsOn (List Exact) P] [ConvergenceTest Exact C]
  {strict : Prop} {run₀ : Run Exact (Euclidean Exact) H P C}

omit [ActsOn (List Exact) H] [ActsOn (List Exact) P] [ConvergenceTest Exact C] in
theorem iterationCap_entries : iterationCap (entries b) m run₀ = min m n := by
  simp [iterationCap, VectorSpace.dimension]

theorem Iterate.crosses_lift {Q : Subproblem (RealVector n)} (fits : Q.Fits s)
    {it : Iterate ℝ (RealVector n)} (h : it.curvature ≠ 0) :
    it.lift.Crosses s ↔ 0 < Q.radius ∧ Q.radius * Q.radius ≤ it.fullSq := by
  rw [Crosses, fits.isConstrained, it.nextSq_lift h, fits.radiusSq, ge_iff_le, Exact.real_le]

omit [ActsOn (List Exact) H] [ConvergenceTest Exact C] in
theorem FullStep.lift [ActsOn (List Exact) H] {Q : Subproblem (RealVector n)} (fits : Q.Fits s)
    {k i : ℕ} {it : Iterate ℝ (RealVector n)} {q : ℝ} {next : Iterate Exact (List Exact)}
    {run run₁ : Run Exact (Euclidean Exact) H P C} (full : FullStep s it.lift run next run₁)
    (pass : Q.Reaches k it q) (hrun : run.Heeds strict Q.Acts Q.Preconditions)
    (hf : run.figures = Figures.lift ⟨√it.stepSq, q, i⟩) :
    Q.Inside it ∧ ∃ z, Q.Preconditions it.nextResidual z ∧ next = (it.stepped Q.norm z).lift ∧
      run₁.Heeds strict Q.Acts Q.Preconditions ∧ run₁.figures = Figures.lift
        ⟨√(it.nextStepSq Q.norm), q - 1 / 2 * it.fullLength * it.rz, i⟩ := by
  refine ⟨fun hr => ?_, advance_lift fits full.advances (hrun.of_eq rfl rfl) hf pass⟩
  have := full.inside
  rw [Iterate.crosses_lift fits pass.curvature_pos.ne', not_and, not_le] at this
  exact this hr

theorem FullStep.reviewed_lift {Q : Subproblem (RealVector n)} (fits : Q.Fits s) {k i : ℕ}
    {it : Iterate ℝ (RealVector n)} {q : ℝ} {next : Iterate Exact (List Exact)}
    {run run₁ run₂ : Run Exact (Euclidean Exact) H P C} {outcome : Option Reason}
    (full : FullStep s it.lift run next run₁)
    (reviews : review s it.lift next run₁ = .ok outcome run₂) (pass : Q.Reaches k it q)
    (hrun : run.Heeds strict Q.Acts Q.Preconditions)
    (hf : run.figures = Figures.lift ⟨√it.stepSq, q, i⟩) :
    Q.Inside it ∧ ∃ z, Q.Preconditions it.nextResidual z ∧ next = (it.stepped Q.norm z).lift ∧
      run₂.Heeds strict Q.Acts Q.Preconditions ∧ run₂.figures = Figures.lift
        ⟨√(it.nextStepSq Q.norm), q - 1 / 2 * it.fullLength * it.rz, i⟩ ∧
      match outcome with
      | none => it.rz ≠ 0 ∧ 0 < (it.stepped Q.norm z).rz
      | some reason => Q.Stops k it (it.stepped Q.norm z) reason (k + 1) := by
  obtain ⟨inside, z, hz, rfl, hrun₁, hf₁⟩ := full.lift fits pass hrun hf
  obtain ⟨hrun₂, hf₂, hout⟩ := review_lift (k := k) reviews hrun₁
  refine ⟨inside, z, hz, rfl, hrun₂, hf₂.trans hf₁, ?_⟩
  cases outcome with
  | none => exact hout
  | some reason => exact hout

theorem ReachesPass.exists_reaches {Q : Subproblem (RealVector n)} {k : ℕ}
    {it : Iterate Exact (List Exact)} {run : Run Exact (Euclidean Exact) H P C} (fits : Q.Fits s)
    (hcap : Q.cap = min m n) (begins : run₀.Commences strict Q)
    (pass : ReachesPass s (entries Q.rhs) m run₀ k it run) :
    ∃ it' q, Q.Reaches k it' q ∧ it = it'.lift ∧ run.Heeds strict Q.Acts Q.Preconditions ∧
      run.figures = Figures.lift ⟨√it'.stepSq, q, k + 1⟩ := by
  induction pass with
  | @first _ it run₁ run₂ starts finite nonneg goes =>
    obtain ⟨z, hz, rfl, hrun₁, hf₁⟩ := start_lift starts begins
    have nonneg : 0 ≤ inner ℝ Q.rhs z := not_lt.mp nonneg
    obtain ⟨w, hw, curved, rfl, hrun₂, hf₂⟩ :=
      first_lift fits goes hrun₁ (hf₁.trans begins.figures) hz nonneg
    refine ⟨_, 0, .first hz hw nonneg curved, rfl, hrun₂, ?_⟩
    simpa [Iterate.opening] using hf₂
  | @next k it next it' run run₁ run₂ run₃ _ full reviews below turns ih =>
    obtain ⟨it, q, reach, rfl, hrun, hf⟩ := ih
    obtain ⟨inside, z, hz, rfl, hrun₂, hf₂, prev, pos⟩ :=
      full.reviewed_lift fits reviews reach hrun hf
    obtain ⟨hf₃, w, hw, curved, rfl, hrun₃⟩ :=
      turn_lift fits turns hrun₂ prev reach.curvature_pos.ne'
    rw [iterationCap_entries, ← hcap] at below
    refine ⟨_, _, .next reach inside hz prev pos below hw curved, rfl, hrun₃, ?_⟩
    rw [hf₃, hf₂]
    rfl

theorem Ends.exists_ends {Q : Subproblem (RealVector n)} {k : ℕ} {stop : Stop (List Exact)}
    {run : Run Exact (Euclidean Exact) H P C} (fits : Q.Fits s) (hcap : Q.cap = min m n)
    (begins : run₀.Begins Q) (ends : Ends s (entries Q.rhs) m run₀ k stop run) :
    ∃ x f, Q.Ends k stop.reason x f ∧ stop.step = entries x ∧ run.figures = f.lift := by
  have hf₀ := begins.figures
  cases ends with
  | badPreconditioner starts infinite =>
    obtain ⟨z, hz, rfl, -⟩ := start_lift starts begins
    cases infinite
  | indefinitePreconditioner starts _ neg falls =>
    obtain ⟨z, hz, rfl, hrun₁, hf₁⟩ := start_lift starts begins
    obtain ⟨x, f, back, rfl, hf⟩ :=
      gradientStep_lift fits falls (hrun₁.of_eq rfl rfl) (hf₁.trans hf₀)
    exact ⟨x, f, .indefinite hz neg back, rfl, hf⟩
  | first starts _ nonneg stops =>
    obtain ⟨z, hz, rfl, hrun₁, hf₁⟩ := start_lift starts begins
    exact first_lift fits stops hrun₁ (hf₁.trans hf₀) hz (not_lt.mp nonneg) trivial
  | boundary pass crosses truncates =>
    obtain ⟨it, q, reach, rfl, hrun, hf⟩ := pass.exists_reaches fits hcap begins
    obtain ⟨constrained, hcross⟩ :=
      (Iterate.crosses_lift fits reach.curvature_pos.ne').mp crosses
    obtain ⟨hstep, hfig⟩ := truncate_lift fits truncates reach constrained hcross hf
    exact ⟨_, _, .boundary reach constrained hcross rfl, hstep, hfig⟩
  | review pass full stops =>
    obtain ⟨it, q, reach, rfl, hrun, hf⟩ := pass.exists_reaches fits hcap begins
    obtain ⟨inside, z, hz, rfl, -, hf₂, hstops⟩ :=
      full.reviewed_lift fits stops reach hrun hf
    exact ⟨_, _, .inside reach inside hz hstops, rfl, hf₂⟩
  | limit pass full reviews reached =>
    obtain ⟨it, q, reach, rfl, hrun, hf⟩ := pass.exists_reaches fits hcap begins
    obtain ⟨inside, z, hz, rfl, -, hf₂, prev, pos⟩ :=
      full.reviewed_lift fits reviews reach hrun hf
    rw [iterationCap_entries, ← hcap] at reached
    exact ⟨_, _, .inside reach inside hz (.limit prev pos reached), rfl, hf₂⟩
  | turn pass full reviews below stops =>
    obtain ⟨it, q, reach, rfl, hrun, hf⟩ := pass.exists_reaches fits hcap begins
    obtain ⟨inside, z, hz, rfl, hrun₂, hf₂, prev, pos⟩ :=
      full.reviewed_lift fits reviews reach hrun hf
    obtain ⟨hf₃, rfl, hflat⟩ := turn_lift fits stops hrun₂ prev reach.curvature_pos.ne'
    obtain ⟨w, hw, flat, rfl⟩ := hflat trivial
    rw [iterationCap_entries, ← hcap] at below
    refine ⟨_, _, .inside reach inside hz (.curvature prev pos below hw flat), rfl, ?_⟩
    rw [hf₃, hf₂]
    rfl

/-- A solve that returns a solution has solved its subproblem, and reports it truly. -/
theorem Solver.exists_ends {Q : Subproblem (RealVector n)} {solver : Solver Exact}
    {cs : Collaborators (Euclidean Exact) H P C} {solution : Solution Exact (List Exact)}
    (fits : Q.Fits solver.settings) (hcap : Q.cap = min m n) (begins : cs.begin.Begins Q)
    (h : (solver.solve cs (entries Q.rhs) m).result = .ok solution) :
    ∃ x f, Q.Ends (Event.fullSteps (solver.solve cs (entries Q.rhs) m).events) solution.reason x f ∧
      solution.step = entries x ∧ solution.stepNorm = .real f.stepNorm ∧
      solution.objective = .real f.objective ∧ solution.iterations = f.iterations := by
  obtain ⟨-, k, stop, run, ends, hstep, hreason, hnorm, hobj, hit, hevents, -⟩ := solve_eq_ok h
  obtain ⟨x, f, real, hx, hf⟩ := ends.exists_ends fits hcap begins
  refine ⟨x, f, ?_, hstep.trans hx, ?_, ?_, ?_⟩
  · rw [hevents, ends.fullSteps_events rfl, hreason]
    exact real
  · rw [hnorm, hf]
    rfl
  · rw [hobj, hf]
    rfl
  · rw [hit, hf]
    rfl

omit [ConvergenceTest Exact C] in
theorem Run.Heeds.begins (h : run₀.Heeds strict act pre)
    (hf₀ : run₀.figures = Figures.lift ⟨0, 0, 0⟩) :
    run₀.Commences strict (s.subproblem b m act pre) where
  toHeeds := h
  opens z hz :=
    (h.preconditioner _ .refl b 0 (congrArg Written.failure? hz)).2 z (congrArg Written.content hz)
  figures := hf₀

/-- A first direction of positive curvature gives no cause to fall back to the gradient. -/
theorem not_takesGradient_of_curved {cs : Collaborators (Euclidean Exact) H P C}
    {f g : RealVector n → RealVector n} (hH : Computes f cs.operator)
    (hP : Computes g cs.preconditioner) (nonneg : 0 ≤ inner ℝ b (g b))
    (curved : 0 < inner ℝ (g b) (f (g b))) : ¬ TakesGradient s (entries b) cs.begin := by
  have obeys : cs.begin.Obeys (fun x w => w = f x) fun r z => z = g r := ⟨hH.answers, hP.answers⟩
  have begins : cs.begin.Begins (s.subproblem b 0 (fun x w => w = f x) fun r z => z = g r) :=
    obeys.begins rfl
  intro falls
  cases falls with
  | preconditioner starts refused =>
    obtain ⟨z, hz, rfl, -⟩ := start_lift starts begins
    obtain rfl : z = g b := hz
    rcases refused with infinite | neg
    · cases infinite
    · exact nonneg.not_gt neg
  | operator starts _ _ probes refused =>
    obtain ⟨z, -, rfl, hrun, hf⟩ := start_lift starts begins
    obtain ⟨w, -, rfl, -⟩ := probe_lift probes hrun (hf.trans begins.figures)
    cases refused
  | direction starts _ _ probes _ _ flat =>
    obtain ⟨z, hz, rfl, hrun, hf⟩ := start_lift starts begins
    obtain ⟨w, hw, rfl, -⟩ := probe_lift probes hrun (hf.trans begins.figures)
    obtain rfl : z = g b := hz
    obtain rfl : w = f (g b) := hw
    have flat : inner ℝ (g b) (f (g b)) ≤ 0 := flat
    exact flat.not_gt curved

theorem ReachesPass.lift {k : ℕ} {it : Iterate Exact (List Exact)}
    {run : Run Exact (Euclidean Exact) H P C} (fits : (s.subproblem b m act pre).Fits s)
    (h₀ : run₀.Heeds strict act pre) (hf₀ : run₀.figures = Figures.lift ⟨0, 0, 0⟩)
    (pass : ReachesPass s (entries b) m run₀ k it run) :
    ∃ it' q, (s.subproblem b m act pre).Reaches k it' q ∧ it = it'.lift ∧
      run.Heeds strict act pre ∧ run.figures = Figures.lift ⟨√it'.stepSq, q, k + 1⟩ :=
  pass.exists_reaches fits rfl (h₀.begins hf₀)

theorem Solver.solve_lift {solver : Solver Exact} {cs : Collaborators (Euclidean Exact) H P C}
    {solution : Solution Exact (List Exact)} (hH : Answers act cs.operator)
    (hP : Answers pre cs.preconditioner)
    (h : (solver.solve cs (entries b) m).result = .ok solution) :
    (solver.settings.subproblem b m act pre).Fits solver.settings ∧ ∃ x f,
      (solver.settings.subproblem b m act pre).Ends
        (Event.fullSteps (solver.solve cs (entries b) m).events) solution.reason x f ∧
      solution.step = entries x ∧ solution.stepNorm = .real f.stepNorm ∧
      solution.objective = .real f.objective ∧ solution.iterations = f.iterations := by
  have fits : (solver.settings.subproblem b m act pre).Fits solver.settings :=
    Settings.subproblem_fits (solve_eq_ok h).1
  have hbegin : cs.begin.Obeys act pre := ⟨hH, hP⟩
  exact ⟨fits, Solver.exists_ends fits rfl (hbegin.begins rfl) h⟩

end

end TrustRegion
