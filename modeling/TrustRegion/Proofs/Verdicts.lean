import TrustRegion.Convergence.Criterion
import TrustRegion.Proofs.Frame
import TrustRegion.Proofs.Passes

/-! The questions to the convergence test, in every arithmetic: one at the start and one for each
full step. A solve is called converged or diverged only because the test has said so. -/
namespace TrustRegion

variable {T V S H P C α β : Type}

open RunM

namespace RunM

/-- A computation whose results all have the property. -/
def Yields (p : α → Prop) (m : RunM T S H P C α) : Prop :=
  ∀ ⦃run a run'⦄, m run = .ok a run' → p a

theorem yields_pure {p : α → Prop} {a : α} (h : p a) : (pure a : RunM T S H P C α).Yields p := by
  intro run a' run' hrun
  cases hrun
  exact h

theorem Yields.andThen {p : β → Prop} {q : α → Prop} {m : RunM T S H P C α}
    {k : α → RunM T S H P C β} (hm : m.Yields q) (hk : ∀ a, q a → (k a).Yields p) :
    (m >>= k).Yields p := by
  intro run b run' hrun
  obtain ⟨a, mid, hfirst, hrest⟩ := bind_eq_ok.mp hrun
  exact hk a (hm hfirst) hrest

theorem Yields.bind {p : β → Prop} {m : RunM T S H P C α} {k : α → RunM T S H P C β}
    (hk : ∀ a, (k a).Yields p) : (m >>= k).Yields p :=
  Yields.andThen (q := fun _ => True) (fun _ _ _ _ => trivial) fun a _ => hk a

end RunM

/-- The convergence test and the residual norms that it was asked about, the latest first. -/
def Run.inquiry (run : Run T S H P C) : C × List (Nat × T) :=
  (run.test, Event.residuals run.latest)

theorem overlooks_inquiry :
    Run.Overlooks (Run.inquiry : Run T S H P C → C × List (Nat × T)) where
  space _ _ _ := rfl
  operator _ _ := rfl
  preconditioner _ _ := rfl
  figures _ _ := rfl
  note _ _ _ := rfl

theorem inquiry_judge [ConvergenceTest T C] {i : Nat} {x : T} {verdict : Verdict}
    {run run' : Run T S H P C} (h : judge i x run = .ok verdict run') :
    verdict = (ConvergenceTest.evaluate run.test i x).1 ∧
      run'.inquiry = ((ConvergenceTest.evaluate run.test i x).2, (i, x) :: run.inquiry.2) := by
  obtain ⟨_, _, ⟨⟩, ⟨⟩⟩ := bind_eq_ok.mp h
  exact ⟨rfl, rfl⟩

section Questions

variable [Scalar T] [VectorSpace T V S] {s : Settings T} {run run' : Run T S H P C}

theorem residualNorm_figures {r z : V} {rz v : T} {known? : Option T}
    (h : residualNorm s r z rz known? run = .ok v run') : run'.figures = run.figures := by
  have hnorm {x : V} (h : RunM.norm x run = .ok v run') : run'.figures = run.figures := by
    simp only [RunM.norm] at h
    rw [Run.eq_of_ofAnswer h]
    rfl
  cases hs : s.residualNorm with
  | preconditioned =>
    simp only [residualNorm, hs] at h
    exact hnorm h
  | unpreconditioned =>
    cases known? with
    | none =>
      simp only [residualNorm, hs] at h
      exact hnorm h
    | some known =>
      simp only [residualNorm, hs] at h
      cases h
      rfl
  | natural =>
    simp only [residualNorm, hs] at h
    cases h
    rfl

variable [ActsOn V H] [ConvergenceTest T C]

theorem inquiry_first {rhs : V} {b : Start T V} {phase : Phase V (Iterate T V)}
    (h : first s rhs b run = .ok phase run') :
    ∃ norm mid, residualNorm s b.residual b.preconditioned b.rz (some (Scalar.sqrt b.rr)) run =
        .ok norm mid ∧
      run'.inquiry =
        ((ConvergenceTest.evaluate run.test 0 norm).2, (0, norm) :: run.inquiry.2) := by
  obtain ⟨norm, mid, verdict, mid', hnorm, hjudge, heq⟩ := first_judges overlooks_inquiry h
  have hmid : mid.inquiry = run.inquiry := spares_residualNorm overlooks_inquiry hnorm
  have htest : mid.test = run.test := congrArg Prod.fst hmid
  obtain ⟨-, hasked⟩ := inquiry_judge hjudge
  exact ⟨norm, mid, hnorm, by rw [heq, hasked, hmid, htest]⟩

omit [ActsOn V H] in
theorem inquiry_review {it next : Iterate T V} {outcome : Option Reason}
    (h : review s it next run = .ok outcome run') :
    (next.rz < 0 ∧ outcome = some .indefinitePreconditioner ∧ run'.inquiry = run.inquiry) ∨
    ∃ norm mid, ¬ next.rz < 0 ∧
      residualNorm s next.residual next.preconditioned next.rz none run = .ok norm mid ∧
      run'.inquiry = ((ConvergenceTest.evaluate run.test run.figures.iterations norm).2,
        (run.figures.iterations, norm) :: run.inquiry.2) ∧
      (outcome = (ConvergenceTest.evaluate run.test run.figures.iterations norm).1.reason? ∨
        (ConvergenceTest.evaluate run.test run.figures.iterations norm).1 = .iterating ∧
          outcome = some .breakdown) := by
  obtain hneg | ⟨norm, mid, verdict, mid', nonneg, hnorm, hjudge, heq, hout⟩ :=
    review_judges overlooks_inquiry h
  · exact .inl hneg
  · have hmid : mid.inquiry = run.inquiry := spares_residualNorm overlooks_inquiry hnorm
    have htest : mid.test = run.test := congrArg Prod.fst hmid
    obtain ⟨hverdict, hasked⟩ := inquiry_judge hjudge
    rw [htest, residualNorm_figures hnorm] at hverdict hasked
    subst hverdict
    exact .inr ⟨norm, mid, nonneg, hnorm, by rw [heq, hasked, hmid], hout⟩

end Questions

/-- A phase that hands on, or stops for what the operator has answered. -/
def Phase.BlamesOperator : Phase V α → Prop
  | stopped reason _ => reason = .badOperator ∨ reason = .negativeCurvature
  | going _ => True

/-- A phase of that kind which stays at the step. -/
def Phase.StaysAt (step : V) : Phase V (Iterate T V) → Prop
  | stopped reason last => (reason = .badOperator ∨ reason = .negativeCurvature) ∧ last = step
  | going it => it.step = step

theorem Phase.BlamesOperator.uncut {reason : Reason} {last : V}
    (h : (Phase.stopped reason last : Phase V α).BlamesOperator) : reason ≠ .constrainedStep := by
  obtain rfl | rfl := h <;> exact Reason.noConfusion

theorem Phase.StaysAt.uncut {reason : Reason} {step last : V}
    (h : (Phase.stopped reason last : Phase V (Iterate T V)).StaysAt step) :
    reason ≠ .constrainedStep := by
  obtain ⟨rfl | rfl, -⟩ := h <;> exact Reason.noConfusion

theorem Verdict.converged_iff {verdict : Verdict} {outcome : Option Reason} {why : Success}
    (h : outcome = verdict.reason? ∨ verdict = .iterating ∧ outcome = some .breakdown) :
    outcome = some (.converged why) ↔ verdict = .converged why := by
  obtain rfl | ⟨rfl, rfl⟩ := h
  · cases verdict <;> simp [reason?]
  · simp

section Solve

variable [Scalar T] [VectorSpace T V S] [ActsOn V H] [ActsOn V P] [ConvergenceTest T C]
  {s : Settings T} {rhs : V} {m k : Nat} {it next : Iterate T V} {run₀ run run' : Run T S H P C}
  {stop : Stop V} {v : Verdict}

omit [ActsOn V P] in
theorem yields_first {b : Start T V} :
    (first s rhs b : RunM T S H P C (Phase V (Iterate T V))).Yields Phase.BlamesOperator := by
  refine .bind fun _ => .bind fun _ => .bind fun _ => .bind fun _ => .bind fun _ =>
    .bind fun _ => .bind fun _ => ?_
  split
  · exact .bind fun _ => .bind fun _ => yields_pure (.inl rfl)
  · split
    · split <;> exact .bind fun _ => .bind fun _ => .bind fun _ => yields_pure (.inr rfl)
    · split <;> exact .bind fun _ => yields_pure trivial

omit [ActsOn V P] [ConvergenceTest T C] in
theorem yields_turn :
    (turn s it next : RunM T S H P C (Phase V (Iterate T V))).Yields
      (Phase.StaysAt next.step) := by
  refine .bind fun _ => ?_
  split
  case' h_2 => refine .bind fun _ => .bind fun _ => ?_
  all_goals
    refine .bind fun _ => .bind fun _ => .bind fun _ => .bind fun _ => ?_
    split
    · exact .bind fun _ => yields_pure ⟨.inl rfl, rfl⟩
    · split
      · exact .bind fun _ => yields_pure ⟨.inr rfl, rfl⟩
      · exact yields_pure rfl

omit [ActsOn V H] [ActsOn V P] in
/-- A review lets a solve go on only if neither the product of the residuals nor the coefficient of
the recurrence is degenerate. -/
theorem yields_review :
    (review s it next : RunM T S H P C (Option Reason)).Yields fun outcome =>
      outcome = none → ¬ next.rz < 0 ∧ Scalar.isFinite (it.beta next) = true ∧
        ¬ Scalar.abs (it.beta next) ≤ 0 := by
  unfold review
  split
  · exact .bind fun _ => yields_pure (nofun)
  · next nonneg =>
    refine .bind fun _ => .bind fun _ => .bind fun verdict => ?_
    cases verdict with
    | converged => exact .bind fun _ => yields_pure (nofun)
    | diverged => exact .bind fun _ => yields_pure (nofun)
    | iterating =>
      refine .bind fun _ => .bind fun _ => ?_
      split
      · exact .bind fun _ => yields_pure (nofun)
      · next regular =>
        refine yields_pure fun _ => ⟨nonneg, ?_⟩
        simpa using regular

theorem Verdict.reason_ne_of_blamed (v : Verdict) {reason : Reason}
    (h : reason = .badOperator ∨ reason = .negativeCurvature) : v.reason? ≠ some reason := by
  obtain rfl | rfl := h <;> cases v <;> simp [reason?]

/-- A solve that ends after a full step, without a cut, has reviewed that step and asks nothing
more. Unless the review has stopped it, it does not end with a verdict. -/
theorem Ends.reviewed (ends : Ends s rhs m run₀ (k + 1) stop run')
    (uncut : stop.reason ≠ .constrainedStep) :
    ∃ it next run₁ run₂ run₃ outcome, ReachesPass s rhs m run₀ k it run₁ ∧
      FullStep s it run₁ next run₂ ∧ TrustRegion.review s it next run₂ = .ok outcome run₃ ∧
      stop.step = next.step ∧ run'.inquiry = run₃.inquiry ∧
      (outcome = some stop.reason ∨
        outcome = none ∧ ∀ v : Verdict, v.reason? ≠ some stop.reason) := by
  cases ends with
  | boundary => exact absurd rfl uncut
  | review pass full reviews => exact ⟨_, _, _, _, _, _, pass, full, reviews, rfl, rfl, .inl rfl⟩
  | limit pass full reviews =>
    have unsaid (v : Verdict) : v.reason? ≠ some .iterationLimit := by
      cases v <;> simp [Verdict.reason?]
    exact ⟨_, _, _, _, _, _, pass, full, reviews, rfl, rfl, .inr ⟨rfl, unsaid⟩⟩
  | turn pass full reviews _ stops =>
    obtain ⟨blamed, hlast⟩ := yields_turn stops
    exact ⟨_, _, _, _, _, _, pass, full, reviews, hlast, spares_turn overlooks_inquiry stops,
      .inr ⟨rfl, fun v => v.reason_ne_of_blamed blamed⟩⟩

/-- A solve that ends with a verdict has reviewed its last full step. -/
theorem Ends.of_verdict (ends : Ends s rhs m run₀ k stop run') (hv : v.reason? = some stop.reason) :
    ∃ k' it next run₁ run₂ run₃, k = k' + 1 ∧ ReachesPass s rhs m run₀ k' it run₁ ∧
      FullStep s it run₁ next run₂ ∧
      TrustRegion.review s it next run₂ = .ok (some stop.reason) run₃ := by
  have uncut : stop.reason ≠ .constrainedStep := by
    intro hcut
    rw [hcut] at hv
    cases v <;> cases hv
  cases k with
  | zero =>
    cases ends with
    | badPreconditioner | indefinitePreconditioner => cases v <;> cases hv
    | boundary => exact absurd rfl uncut
    | first _ _ _ stops => exact absurd hv (v.reason_ne_of_blamed (yields_first stops))
  | succ k =>
    obtain ⟨it, next, run₁, run₂, run₃, outcome, pass, full, reviews, -, -, hout⟩ :=
      ends.reviewed uncut
    obtain rfl | ⟨-, unsaid⟩ := hout
    · exact ⟨k, it, next, run₁, run₂, run₃, rfl, pass, full, reviews⟩
    · exact absurd hv (unsaid v)

/-- A test that never asks to stop and never changes. -/
def Idle (test : C) : Prop := ∀ i (x : T), ConvergenceTest.evaluate test i x = (.iterating, test)

omit [VectorSpace T V S] [ActsOn V H] [ActsOn V P] [ConvergenceTest T C] in
theorem idle_never : Idle (Criterion.never : Criterion T) := fun _ _ => rfl

theorem ReachesPass.test_eq (idle : Idle run₀.test) (pass : ReachesPass s rhs m run₀ k it run) :
    run.test = run₀.test := by
  induction pass with
  | @first b it run₁ run₂ starts _ _ goes =>
    obtain ⟨norm, mid, -, heq⟩ := inquiry_first goes
    have hstart : run₁.test = run₀.test :=
      congrArg Prod.fst (spares_start overlooks_inquiry starts)
    have htest : run₂.test = (ConvergenceTest.evaluate run₁.test 0 norm).2 := congrArg Prod.fst heq
    rw [htest, hstart, idle]
  | @next k it next it' run run₁ run₂ run₃ _ full reviews _ turns ih =>
    have hturn : run₃.test = run₂.test := congrArg Prod.fst (spares_turn overlooks_inquiry turns)
    have hstep : run₁.test = run₀.test :=
      (congrArg Prod.fst (spares_advance overlooks_inquiry full.advances)).trans ih
    obtain ⟨-, ⟨⟩, -⟩ | ⟨norm, mid, -, -, heq, -⟩ := inquiry_review reviews
    have htest : run₂.test = (ConvergenceTest.evaluate run₁.test run₁.figures.iterations norm).2 :=
      congrArg Prod.fst heq
    rw [hturn, htest, hstep, idle]

theorem Ends.reason_of_idle (idle : Idle run₀.test) (ends : Ends s rhs m run₀ k stop run') :
    v.reason? ≠ some stop.reason := by
  intro hv
  obtain ⟨k', it, next, run₁, run₂, run₃, -, pass, full, reviews⟩ := ends.of_verdict hv
  have hpass : run₁.test = run₀.test := pass.test_eq idle
  have hstep : run₂.test = run₀.test :=
    (congrArg Prod.fst (spares_advance overlooks_inquiry full.advances)).trans hpass
  obtain ⟨-, hout, -⟩ | ⟨norm, mid, -, -, -, hout⟩ := inquiry_review reviews
  · rw [hout] at hv
    cases v <;> cases hv
  · rw [hstep, idle] at hout
    obtain hout | ⟨-, hout⟩ := hout
    · cases hout
    · rw [hout] at hv
      cases v <;> cases hv

theorem Solver.reason_of_idle {solver : Solver T} {cs : Collaborators S H P C}
    {solution : Solution T V} (idle : Idle cs.test)
    (h : (solver.solve cs rhs m).result = .ok solution) : v.reason? ≠ some solution.reason := by
  obtain ⟨-, k, stop, run, ends, -, hreason, -⟩ := Solver.solve_eq_ok h
  rw [hreason]
  exact ends.reason_of_idle idle

end Solve

end TrustRegion
