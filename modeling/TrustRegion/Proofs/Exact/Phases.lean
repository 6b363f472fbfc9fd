import TrustRegion.Proofs.Departure
import TrustRegion.Proofs.Exact.Calls
import TrustRegion.Proofs.Exact.Lift
import TrustRegion.Proofs.Exact.Tracking

/-! The phases of a solve in exact arithmetic, as steps between real iterates. -/
namespace TrustRegion

open scoped RealInnerProductSpace
open RunM
open Scalar (isFinite)

variable {n : ℕ} {Q : Subproblem (RealVector n)} {s : Settings Exact} {H P C : Type}

theorem boundaryStep_lift {p d : RealVector n} {τ : ℝ} {curvature rz : Exact} {step : List Exact}
    {run run' : Run Exact (Euclidean Exact) H P C} (fits : Q.Fits s)
    (h : boundaryStep s (.real τ) curvature rz (entries p) (entries d) run = .ok step run') :
    step = entries (d + τ • p) ∧
      run'.figures = ⟨.real Q.radius,
        run.figures.objective + modelChange (.real τ) curvature rz, run.figures.iterations⟩ := by
  simp only [boundaryStep, bind_eq_ok, setStepNorm_apply, exists_ok_eq, axpy_entries,
    mapObjective_apply, fits.radius] at h
  cases h
  exact ⟨rfl, rfl⟩

theorem residualNorm_frame {run run' : Run Exact (Euclidean Exact) H P C} {r z : RealVector n}
    {rz v : Exact} {known? : Option Exact}
    (h : residualNorm s (entries r) (entries z) rz known? run = .ok v run') :
    run'.toCollaborators = run.toCollaborators ∧ run'.figures = run.figures := by
  cases hs : s.residualNorm with
  | preconditioned =>
    simp only [residualNorm, hs, norm_entries] at h
    cases h
    exact ⟨rfl, rfl⟩
  | unpreconditioned =>
    cases known? <;> simp only [residualNorm, hs, norm_entries] at h <;> obtain ⟨⟩ := h <;>
      exact ⟨rfl, rfl⟩
  | natural =>
    simp only [residualNorm, hs] at h
    cases h
    exact ⟨rfl, rfl⟩

theorem tracked_eq_ok {α : Type} {run run' : Run Exact (Euclidean Exact) H P C} {x : RealVector n}
    {carried : ℝ} {a : α} {k : Exact → RunM Exact (Euclidean Exact) H P C α}
    (h : (match Q.norm with
      | .preconditioned => do
        let v ← pure (Exact.real carried)
        k v
      | .unpreconditioned => do
        let v ← dot (entries x) (entries x)
        k v) run = .ok a run') :
    ∃ mid : Run Exact (Euclidean Exact) H P C, mid.toCollaborators = run.toCollaborators ∧
      mid.figures = run.figures ∧
      k (.real (match Q.norm with | .preconditioned => carried | .unpreconditioned => ⟪x, x⟫)) mid =
        .ok a run' := by
  cases hn : Q.norm with
  | preconditioned =>
    simp only [hn, bind_eq_ok, pure_apply, exists_ok_eq] at h
    exact ⟨run, rfl, rfl, h⟩
  | unpreconditioned =>
    simp only [hn, bind_eq_ok, dot_entries, exists_ok_eq] at h
    refine ⟨_, ?_, ?_, h⟩ <;> rfl

theorem judge_frame [ConvergenceTest Exact C] {run run' : Run Exact (Euclidean Exact) H P C}
    {iteration : ℕ} {norm : Exact} {verdict : Verdict}
    (h : judge iteration norm run = .ok verdict run') :
    run'.operator = run.operator ∧ run'.preconditioner = run.preconditioner ∧
      run'.figures = run.figures := by
  simp only [judge, bind_eq_ok, record_apply, exists_ok_eq] at h
  cases h
  exact ⟨rfl, rfl, rfl⟩

theorem trackedPair_eq_ok {α : Type} {run run' : Run Exact (Euclidean Exact) H P C}
    {it next : Iterate ℝ (RealVector n)} {a : α}
    {k : Exact × Exact → RunM Exact (Euclidean Exact) H P C α}
    (h : (match Q.norm with
      | .preconditioned => do
        let v ← pure (Exact.real (next.rz / it.rz) *
            (Exact.real it.cross + Exact.real it.fullLength * Exact.real it.directionSq),
          Exact.real (next.rz / it.rz) *
            (Exact.real it.rz + Exact.real (next.rz / it.rz) * Exact.real it.directionSq))
        k v
      | .unpreconditioned => do
        let cross ← dot (entries next.step) (entries (it.nextDirection next))
        let directionSq ← dot (entries (it.nextDirection next)) (entries (it.nextDirection next))
        let v ← pure (cross, directionSq)
        k v) run = .ok a run') :
    ∃ mid : Run Exact (Euclidean Exact) H P C, mid.toCollaborators = run.toCollaborators ∧
      mid.figures = run.figures ∧
      k (.real (it.nextCross Q.norm next), .real (it.nextDirectionSq Q.norm next)) mid =
        .ok a run' := by
  cases hn : Q.norm with
  | preconditioned =>
    simp only [hn, bind_eq_ok, pure_apply, exists_ok_eq] at h
    exact ⟨run, rfl, rfl, h⟩
  | unpreconditioned =>
    simp only [hn, bind_eq_ok, dot_entries, pure_apply, exists_ok_eq] at h
    refine ⟨_, ?_, ?_, h⟩ <;> rfl

variable [ActsOn (List Exact) H] [ActsOn (List Exact) P] {strict : Prop}
  {run run' : Run Exact (Euclidean Exact) H P C}

/-- A run about to solve a subproblem, whose preconditioner opens as the subproblem allows. -/
structure Run.Commences (strict : Prop) (Q : Subproblem (RealVector n))
    (run : Run Exact (Euclidean Exact) H P C) :
    Prop extends run.Heeds strict Q.Acts Q.Preconditions where
  opens : ∀ z : RealVector n, (ActsOn.apply run.preconditioner (entries Q.rhs)
    (entries (0 : RealVector n))).1 = { content := entries z } → Q.Opens z
  figures : run.figures = Figures.lift ⟨0, 0, 0⟩

abbrev Run.Begins (Q : Subproblem (RealVector n)) (run : Run Exact (Euclidean Exact) H P C) :
    Prop :=
  run.Commences True Q

theorem start_lift {b : Start Exact (List Exact)} (h : start (entries Q.rhs) run = .ok b run')
    (begins : run.Commences strict Q) :
    ∃ z, Q.Opens z ∧ b = (Start.opening Q.rhs z).lift ∧
      run'.Heeds strict Q.Acts Q.Preconditions ∧ run'.figures = run.figures := by
  simp only [start, bind_eq_ok, zerosLike_entries, copy_entries, dot_entries, exists_ok_eq,
    Exact.isFinite_real, ↓reduceIte] at h
  obtain ⟨c, run₁, hp, rz, run₂, hd, h⟩ := h
  obtain ⟨⟨l, rfl⟩, -, hrun₁, hf⟩ := precondition_eq_ok hp (begins.toHeeds.of_eq rfl rfl)
  obtain ⟨z, hz, rfl, rfl⟩ := dot_eq_ok hd
  cases h
  have hz₀ := precondition_written hp
  rw [hz] at hz₀
  exact ⟨z, begins.opens z hz₀, by rw [hz]; rfl, hrun₁.of_eq rfl rfl, hf⟩

theorem gradientStep_lift {y : RealVector n} {i : ℕ} {step : List Exact} (fits : Q.Fits s)
    (h : gradientStep s (entries Q.rhs) (.real ⟪Q.rhs, Q.rhs⟫) (entries (0 : RealVector n))
      (entries y) run = .ok step run')
    (hrun : run.Obeys Q.Acts Q.Preconditions) (hf : run.figures = Figures.lift ⟨0, 0, i⟩) :
    ∃ x f, Q.FallsBack i x f ∧ step = entries x ∧ run'.figures = f.lift := by
  unfold gradientStep at h
  rw [fits.radius, fits.radiusSq] at h
  split at h
  · next hz =>
    cases h
    exact ⟨0, _, .stays (by simpa using hz), rfl, hf⟩
  · next hz =>
    have hpos : 0 < Q.radius := fits.nonneg.lt_of_ne' (by simpa using hz)
    simp only [bind_eq_ok, setStepNorm_apply, exists_ok_eq, Q.gradientLength_lift,
      Q.gradientNorm_lift, axpy_entries, zero_add, Exact.half_eq, Exact.real_neg] at h
    obtain ⟨c, run₁, ho, _, run₂, ha, h⟩ := h
    obtain ⟨real, hact, -, hf₁⟩ := operate_eq_ok ho (hrun.of_eq rfl rfl)
    obtain ⟨l, rfl⟩ := real trivial
    obtain ⟨w, hw, rfl, rfl⟩ := aypx_eq_ok ha
    simp only [dot_entries, mapObjective_apply, countIteration_apply, exists_ok_eq] at h
    cases h
    refine ⟨_, _, .falls hpos (hact w hw), rfl, ?_⟩
    simp [hf₁, hf, Figures.lift, sub_eq_add_neg, ← neg_smul]

theorem leave_lift {z w : RealVector n} {step : List Exact} (fits : Q.Fits s)
    (h : leave s (entries Q.rhs) (.real ⟪Q.rhs, Q.rhs⟫)
      (Iterate.opening Q.norm Q.rhs z w).lift run = .ok step run')
    (hrun : run.Obeys Q.Acts Q.Preconditions) (hf : run.figures = Figures.lift ⟨0, 0, 1⟩)
    (hz : Q.Opens z) (nonneg : 0 ≤ ⟪Q.rhs, z⟫) (hw : Q.Acts z w)
    (flat : ⟪z, w⟫ ≤ 0) :
    ∃ x f, Q.Ends 0 .negativeCurvature x f ∧ step = entries x ∧ run'.figures = f.lift := by
  set it := Iterate.opening Q.norm Q.rhs z w with hit
  have hd : it.lift.directionSq = .real it.directionSq := rfl
  unfold leave at h
  split at h
  · next hc =>
    have hc := fits.isConstrained.mp hc
    split at h
    · next hpos =>
      have hpos : 0 < it.directionSq := hpos
      rw [hd, fits.radiusSq, Exact.real_div hpos.ne',
        Exact.sqrt_real (div_nonneg (mul_self_nonneg _) hpos.le)] at h
      obtain ⟨hstep, hfig⟩ := boundaryStep_lift fits h
      refine ⟨_, _, .leaves hz nonneg hw flat hc hpos rfl, ?_, ?_⟩
      · simpa [hit, Iterate.opening] using hstep
      · rw [hfig, it.modelChange_lift, hf, Figures.lift, Exact.real_add, zero_add]
        rfl
    · next hpos =>
      obtain ⟨x, f, falls, hstep, hfig⟩ := gradientStep_lift fits h hrun hf
      exact ⟨x, f, .fallsBack hz nonneg hw flat (fun _ => not_lt.mp hpos) falls, hstep, hfig⟩
  · next hc =>
    have hc : ¬ 0 < Q.radius := fun hpos => hc (fits.isConstrained.mpr hpos)
    cases h
    exact ⟨0, _, .fallsBack hz nonneg hw flat (absurd · hc)
      (.stays (le_antisymm (not_lt.mp hc) fits.nonneg)), rfl, hf⟩

omit [ActsOn (List Exact) H] [ActsOn (List Exact) P] in
theorem curvature_eq_ok {x : RealVector n} {c : List Exact} {v : Exact}
    (h : dot (entries x) c run = .ok v run') (real : strict → ∃ l : List ℝ, c = l.map .real)
    (acts : ∀ w, c = entries w → Q.Acts x w) :
    (strict → isFinite v = true) ∧
      (isFinite v = true → ∃ w, Q.Acts x w ∧ c = entries w ∧ v = .real ⟪x, w⟫) ∧
      run' = run.log (.called (.space .dot) none) := by
  refine ⟨fun hs => ?_, fun finite => ?_, Run.eq_of_ofAnswer h⟩
  · obtain ⟨l, rfl⟩ := real hs
    obtain ⟨w, -, rfl, -⟩ := dot_eq_ok h
    rfl
  · obtain ⟨w, hw, hv, -⟩ := dot_eq_ok_of_isFinite h finite
    exact ⟨w, acts w hw, hw, hv⟩

theorem probe_heeds [ConvergenceTest Exact C] {z : RealVector n} {p : Probe Exact (List Exact)}
    (h : probe s (Start.opening Q.rhs z).lift run = .ok p run')
    (hrun : run.Heeds strict Q.Acts Q.Preconditions)
    (hf : run.figures = Figures.lift ⟨0, 0, 0⟩) :
    (strict → isFinite p.curvature = true) ∧
      (isFinite p.curvature = true →
        ∃ w, Q.Acts z w ∧ p = ⟨entries z, entries w, .real ⟪z, w⟫⟩) ∧
      run'.Heeds strict Q.Acts Q.Preconditions ∧ run'.figures = Figures.lift ⟨0, 0, 1⟩ := by
  simp only [probe, Start.lift, Start.opening, bind_eq_ok] at h
  obtain ⟨norm, run₁, hn, verdict, run₂, hj, h⟩ := h
  obtain ⟨hc₁, hf₁⟩ := residualNorm_frame hn
  obtain ⟨ho₂, hp₂, hf₂⟩ := judge_frame hj
  simp only [note_apply, copy_entries, exists_ok_eq] at h
  obtain ⟨c, run₃, ho, h⟩ := h
  have hrun₂ : run₂.Heeds strict Q.Acts Q.Preconditions :=
    hrun.of_eq (by rw [ho₂, hc₁]) (by rw [hp₂, hc₁])
  obtain ⟨real, hact, hrun₃, hf₃⟩ := operate_eq_ok ho (hrun₂.of_eq rfl rfl)
  simp only [countIteration_apply, exists_ok_eq] at h
  obtain ⟨curvature, run₄, hd, h⟩ := h
  obtain ⟨hfinite, hcurvature, rfl⟩ := curvature_eq_ok hd real hact
  cases h
  refine ⟨hfinite, fun finite => ?_, hrun₃.of_eq rfl rfl, ?_⟩
  · obtain ⟨w, hw, rfl, rfl⟩ := hcurvature finite
    exact ⟨w, hw, rfl⟩
  · simp [hf₃, hf₂, hf₁, hf, Figures.lift]

theorem probe_lift [ConvergenceTest Exact C] {z : RealVector n} {p : Probe Exact (List Exact)}
    (h : probe s (Start.opening Q.rhs z).lift run = .ok p run')
    (hrun : run.Obeys Q.Acts Q.Preconditions) (hf : run.figures = Figures.lift ⟨0, 0, 0⟩) :
    ∃ w, Q.Acts z w ∧ p = ⟨entries z, entries w, .real ⟪z, w⟫⟩ ∧
      run'.Obeys Q.Acts Q.Preconditions ∧ run'.figures = Figures.lift ⟨0, 0, 1⟩ := by
  obtain ⟨finite, hp, hrun', hf'⟩ := probe_heeds h hrun hf
  obtain ⟨w, hw, rfl⟩ := hp (finite trivial)
  exact ⟨w, hw, rfl, hrun', hf'⟩

omit [ActsOn (List Exact) H] [ActsOn (List Exact) P] in
theorem measure_lift {z w : RealVector n} {v : Exact} (fits : Q.Fits s)
    (h : measure s (Start.opening Q.rhs z).lift (entries z) run = .ok v run') :
    v = .real (Iterate.opening Q.norm Q.rhs z w).directionSq ∧
      run'.toCollaborators = run.toCollaborators ∧ run'.figures = run.figures := by
  unfold measure at h
  rw [fits.norm] at h
  cases hn : Q.norm with
  | preconditioned =>
    rw [hn] at h
    cases h
    exact ⟨rfl, rfl, rfl⟩
  | unpreconditioned =>
    simp only [hn, dot_entries] at h
    cases h
    exact ⟨rfl, rfl, rfl⟩

omit [ActsOn (List Exact) P] in
theorem depart_lift {z w : RealVector n} {run₁ : Run Exact (Euclidean Exact) H P C}
    {phase : Phase (List Exact) (Iterate Exact (List Exact))} (fits : Q.Fits s) (hr : 0 < Q.radius)
    (flat : ⟪z, w⟫ ≤ 0)
    (measures : measure s (Start.opening Q.rhs z).lift (entries z) run =
      .ok (.real (Iterate.opening Q.norm Q.rhs z w).directionSq) run₁)
    (long : 0 < (Iterate.opening Q.norm Q.rhs z w).directionSq)
    (hf : run₁.figures = Figures.lift ⟨0, 0, 1⟩)
    (h : depart s (entries Q.rhs) (Start.opening Q.rhs z).lift
      ⟨entries z, entries w, .real ⟪z, w⟫⟩ run = .ok phase run') :
    phase = .stopped .negativeCurvature (entries
        (√(Q.radius * Q.radius / (Iterate.opening Q.norm Q.rhs z w).directionSq) • z)) ∧
      run'.figures = Figures.lift ⟨Q.radius, (Iterate.opening Q.norm Q.rhs z w).changeAlong
        √(Q.radius * Q.radius / (Iterate.opening Q.norm Q.rhs z w).directionSq), 1⟩ := by
  rw [depart_of_flat rfl flat measures (fits.isConstrained.mpr hr) long, fits.radiusSq,
    Exact.real_div long.ne', Exact.sqrt_real (div_nonneg (mul_self_nonneg _) long.le)] at h
  simp only [bind_eq_ok, note_apply, exists_ok_eq] at h
  obtain ⟨step, run₂, hb, ⟨⟩⟩ := h
  have hb : boundaryStep s _ (.real ⟪z, w⟫) (.real ⟪Q.rhs, z⟫) (entries z)
    (entries (0 : RealVector n)) _ = _ := hb
  obtain ⟨rfl, hfig⟩ := boundaryStep_lift fits hb
  refine ⟨by rw [zero_add], hfig.trans ?_⟩
  have change := (Iterate.opening Q.norm Q.rhs z w).modelChange_lift
    √(Q.radius * Q.radius / (Iterate.opening Q.norm Q.rhs z w).directionSq)
  have hf : (run₁.log (.noted (.negativeCurvature (.real ⟪z, w⟫)))).figures =
    Figures.lift ⟨0, 0, 1⟩ := hf
  show (⟨_, _ + modelChange _ (Iterate.opening Q.norm Q.rhs z w).lift.curvature
    (Iterate.opening Q.norm Q.rhs z w).lift.rz, _⟩ : Figures Exact) = _
  rw [change, hf]
  simp [Figures.lift]

theorem first_lift [ConvergenceTest Exact C] {z : RealVector n}
    {phase : Phase (List Exact) (Iterate Exact (List Exact))} (fits : Q.Fits s)
    (h : first s (entries Q.rhs) (Start.opening Q.rhs z).lift run = .ok phase run')
    (hrun : run.Heeds strict Q.Acts Q.Preconditions)
    (hf : run.figures = Figures.lift ⟨0, 0, 0⟩) (hz : Q.Opens z) (nonneg : 0 ≤ ⟪Q.rhs, z⟫) :
    match phase with
    | .going it => ∃ w, Q.Acts z w ∧ 0 < ⟪z, w⟫ ∧ it = (Iterate.opening Q.norm Q.rhs z w).lift ∧
        run'.Heeds strict Q.Acts Q.Preconditions ∧ run'.figures = Figures.lift ⟨0, 0, 1⟩
    | .stopped reason step =>
        strict → ∃ x f, Q.Ends 0 reason x f ∧ step = entries x ∧ run'.figures = f.lift := by
  rw [first_eq] at h
  obtain ⟨p, run₁, hp, h⟩ := bind_eq_ok.mp h
  obtain ⟨hfinite, hprobe, hrun₁, hf₁⟩ := probe_heeds hp hrun hf
  unfold depart at h
  split at h
  · next infinite =>
    simp only [bind_eq_ok, note_apply, exists_ok_eq] at h
    obtain ⟨step, run₃, -, ⟨⟩⟩ := h
    intro hs
    simp [hfinite hs] at infinite
  · next finite =>
    obtain ⟨w, hact, rfl⟩ := hprobe (by simpa using finite)
    obtain ⟨directionSq, run₂, hm, h⟩ := bind_eq_ok.mp h
    obtain ⟨rfl, hc₂, hf₂⟩ := measure_lift (w := w) fits hm
    have hrun₂ : run₂.Heeds strict Q.Acts Q.Preconditions :=
      hrun₁.of_eq (congrArg (·.operator) hc₂) (congrArg (·.preconditioner) hc₂)
    have hfig : run₂.figures = Figures.lift ⟨0, 0, 1⟩ := hf₂.trans hf₁
    split at h
    · next flat =>
      simp only [bind_eq_ok, note_apply, exists_ok_eq] at h
      obtain ⟨step, run₃, hl, ⟨⟩⟩ := h
      intro hs
      change leave s _ _ (Iterate.opening Q.norm Q.rhs z w).lift _ = _ at hl
      exact leave_lift fits hl ((hrun₂.obeys hs).of_eq rfl rfl) hfig hz nonneg hact flat
    · next curved =>
      cases h
      exact ⟨w, hact, not_le.mp curved, rfl, hrun₂, hfig⟩

theorem advance_lift {k i : ℕ} {it : Iterate ℝ (RealVector n)} {q : ℝ}
    {next : Iterate Exact (List Exact)} (fits : Q.Fits s)
    (h : advance s it.lift run = .ok next run') (hrun : run.Heeds strict Q.Acts Q.Preconditions)
    (hf : run.figures = Figures.lift ⟨√it.stepSq, q, i⟩) (pass : Q.Reaches k it q) :
    ∃ z, Q.Preconditions it.nextResidual z ∧ next = (it.stepped Q.norm z).lift ∧
      run'.Heeds strict Q.Acts Q.Preconditions ∧ run'.figures = Figures.lift
        ⟨√(it.nextStepSq Q.norm), q - 1 / 2 * it.fullLength * it.rz, i⟩ := by
  have hα := it.alpha_lift pass.curvature_pos.ne'
  have hsq := it.nextSq_lift pass.curvature_pos.ne'
  have hnonneg : 0 ≤ it.nextStepSq Q.norm := pass.nextStepSq_eq ▸ pass.fullSq_nonneg
  simp only [advance, hα, hsq, fits.norm] at h
  simp only [Iterate.lift, bind_eq_ok, axpy_entries, Exact.real_neg, exists_ok_eq,
    it.nextResidual_eq] at h
  obtain ⟨c, run₁, hp, h⟩ := h
  obtain ⟨⟨l, rfl⟩, hpre, hrun₁, hf₁⟩ := precondition_eq_ok hp (hrun.of_eq rfl rfl)
  obtain ⟨mid, hc, hf₂, h⟩ := tracked_eq_ok h
  change (setStepNorm (Scalar.sqrt (.real (it.nextStepSq Q.norm))) >>= _) mid = _ at h
  rw [Exact.sqrt_real hnonneg] at h
  simp only [bind_eq_ok, setStepNorm_apply, mapObjective_apply, exists_ok_eq] at h
  obtain ⟨rz, run₂, hd, h⟩ := h
  obtain ⟨z, hz, rfl, rfl⟩ := dot_eq_ok hd
  cases h
  refine ⟨z, hpre z hz, by rw [hz]; rfl, ?_, ?_⟩
  · exact hrun₁.of_eq (congrArg (·.operator) hc) (congrArg (·.preconditioner) hc)
  · simp [hf₂, hf₁, hf, Figures.lift]

theorem review_lift [ConvergenceTest Exact C] {k : ℕ} {it next : Iterate ℝ (RealVector n)}
    {outcome : Option Reason} (h : review s it.lift next.lift run = .ok outcome run')
    (hrun : run.Heeds strict Q.Acts Q.Preconditions) :
    run'.Heeds strict Q.Acts Q.Preconditions ∧ run'.figures = run.figures ∧
      match outcome with
      | none => it.rz ≠ 0 ∧ 0 < next.rz
      | some reason => Q.Stops k it next reason (k + 1) := by
  unfold review at h
  split at h
  · next neg =>
    cases h
    exact ⟨hrun.of_eq rfl rfl, rfl, .indefinite neg⟩
  · next hneg =>
    have nonneg : 0 ≤ next.rz := not_lt.mp hneg
    simp only [bind_eq_ok, iterations_apply, exists_ok_eq] at h
    obtain ⟨norm, run₁, hn, verdict, run₂, hj, h⟩ := h
    obtain ⟨hc₁, hf₁⟩ := residualNorm_frame hn
    obtain ⟨ho₂, hp₂, hf₂⟩ := judge_frame hj
    have hrun₂ : run₂.Heeds strict Q.Acts Q.Preconditions :=
      hrun.of_eq (by rw [ho₂, hc₁]) (by rw [hp₂, hc₁])
    have hfig : run₂.figures = run.figures := hf₂.trans hf₁
    cases verdict with
    | converged why =>
      cases h
      exact ⟨hrun₂.of_eq rfl rfl, hfig, .converged nonneg why⟩
    | diverged why =>
      cases h
      exact ⟨hrun₂.of_eq rfl rfl, hfig, .diverged nonneg why⟩
    | iterating =>
      simp only [bind_eq_ok, iterations_apply, note_apply, exists_ok_eq] at h
      split at h
      · next vanishes =>
        cases h
        exact ⟨hrun₂.of_eq rfl rfl, hfig, .breakdown nonneg (Iterate.beta_vanishes.mp vanishes)⟩
      · next hβ =>
        cases h
        rw [Iterate.beta_vanishes, not_or] at hβ
        exact ⟨hrun₂.of_eq rfl rfl, hfig, hβ.1, nonneg.lt_of_ne' hβ.2⟩

theorem turn_lift {it next : Iterate ℝ (RealVector n)}
    {phase : Phase (List Exact) (Iterate Exact (List Exact))} (fits : Q.Fits s)
    (h : turn s it.lift next.lift run = .ok phase run')
    (hrun : run.Heeds strict Q.Acts Q.Preconditions) (prev : it.rz ≠ 0) (hκ : it.curvature ≠ 0) :
    run'.figures = { run.figures with iterations := run.figures.iterations + 1 } ∧
      match phase with
      | .going it' => ∃ w, Q.Acts (it.nextDirection next) w ∧ 0 < ⟪it.nextDirection next, w⟫ ∧
          it' = (it.turned Q.norm next w).lift ∧ run'.Heeds strict Q.Acts Q.Preconditions
      | .stopped reason step => step = entries next.step ∧
          (strict → ∃ w, Q.Acts (it.nextDirection next) w ∧ ⟪it.nextDirection next, w⟫ ≤ 0 ∧
            reason = .negativeCurvature) := by
  simp only [turn, it.beta_lift prev, it.alpha_lift hκ, fits.norm] at h
  simp only [Iterate.lift, bind_eq_ok, aypx_entries, exists_ok_eq, it.nextDirection_eq] at h
  obtain ⟨mid, hc, hf, h⟩ := trackedPair_eq_ok h
  simp only [bind_eq_ok] at h
  obtain ⟨c, run₁, ho, curvature, run₂, hd, h⟩ := h
  obtain ⟨real, hact, hrun₁, hf₁⟩ := operate_eq_ok ho
    (hrun.of_eq (congrArg (·.operator) hc) (congrArg (·.preconditioner) hc))
  obtain ⟨hfinite, hcurvature, rfl⟩ := curvature_eq_ok hd real hact
  simp only [countIteration_apply, exists_ok_eq] at h
  have hfig : run₁.figures = run.figures := hf₁.trans hf
  split at h
  · next infinite =>
    cases h
    exact ⟨by simp [hfig], rfl, fun hs => by simp [hfinite hs] at infinite⟩
  · next finite =>
    obtain ⟨w, hw, rfl, rfl⟩ := hcurvature (by simpa using finite)
    split at h
    · next flat =>
      cases h
      exact ⟨by simp [hfig], rfl, fun _ => ⟨w, hw, flat, rfl⟩⟩
    · next curved =>
      cases h
      exact ⟨by simp [hfig], w, hw, not_le.mp curved, rfl, hrun₁.of_eq rfl rfl⟩

/-- The length of a cut is the real one: the root is of a positive number. -/
theorem Subproblem.Reaches.boundary_lift {k : ℕ} {it : Iterate ℝ (RealVector n)} {q : ℝ}
    (fits : Q.Fits s) (pass : Q.Reaches k it q) (constrained : 0 < Q.radius)
    (crosses : Q.radius * Q.radius ≤ it.fullSq) :
    0 ≤ it.cross * it.cross + it.directionSq * (Q.radius * Q.radius - it.stepSq) ∧
      it.lift.boundary s = .real (it.boundaryLength Q.radius) := by
  have hdir := pass.directionSq_pos constrained crosses
  have hdisc : 0 ≤ it.cross * it.cross +
      it.directionSq * (Q.radius * Q.radius - it.stepSq) :=
    add_nonneg (mul_self_nonneg _)
      (mul_nonneg hdir.le (sub_nonneg.mpr (pass.stepSq_lt constrained).le))
  refine ⟨hdisc, ?_⟩
  simp only [Iterate.boundary, Iterate.lift, fits.radiusSq, Exact.real_mul, Exact.real_add,
    Exact.real_sub, Exact.sqrt_real hdisc, Exact.real_div hdir.ne']
  rfl

omit [ActsOn (List Exact) H] [ActsOn (List Exact) P] in
theorem truncate_lift {k : ℕ} {it : Iterate ℝ (RealVector n)} {q : ℝ} {step : List Exact}
    (fits : Q.Fits s) (h : truncate s it.lift run = .ok step run') (pass : Q.Reaches k it q)
    (constrained : 0 < Q.radius) (crosses : Q.radius * Q.radius ≤ it.fullSq)
    (hf : run.figures = Figures.lift ⟨√it.stepSq, q, k + 1⟩) :
    step = entries (it.step + it.boundaryLength Q.radius • it.direction) ∧
      run'.figures = Figures.lift
        ⟨Q.radius, q + it.changeAlong (it.boundaryLength Q.radius), k + 1⟩ := by
  have hdir := pass.directionSq_pos constrained crosses
  have hτ := (pass.boundary_lift fits constrained crosses).2
  simp only [truncate, bind_eq_ok, note_apply, exists_ok_eq, hτ] at h
  rw [if_pos (show it.lift.directionSq > 0 from hdir)] at h
  obtain ⟨hstep, hfig⟩ := boundaryStep_lift fits h
  refine ⟨hstep, ?_⟩
  rw [hfig, it.modelChange_lift]
  simp [hf, Figures.lift]

end TrustRegion
