import TrustRegion.Proofs.Run

/-! What the phases of a solve leave alone, and where they turn to the convergence test: an
observation to which calls, figures and most notes mean nothing changes in no other place. -/
namespace TrustRegion

variable {T V S H P C α β γ : Type}

/-- The notes that neither begin a pass nor cut it off. -/
def Note.isQuiet : Note T → Bool
  | pass .. | constrainedStep => false
  | _ => true

def Verdict.reason? : Verdict → Option Reason
  | iterating => none
  | converged why => some (.converged why)
  | diverged why => some (.diverged why)

/-- An observation of runs to which calls, figures and quiet notes mean nothing. -/
structure Run.Overlooks (f : Run T S H P C → γ) : Prop where
  space (run : Run T S H P C) (op : SpaceOp) (space : S) :
    f ({ run with space }.log (.called (.space op) none)) = f run
  operator (run : Run T S H P C) (operator : H) :
    f ({ run with operator }.log (.called .operator none)) = f run
  preconditioner (run : Run T S H P C) (preconditioner : P) :
    f ({ run with preconditioner }.log (.called .preconditioner none)) = f run
  figures (run : Run T S H P C) (figures : Figures T) : f { run with figures } = f run
  note (run : Run T S H P C) (n : Note T) (quiet : n.isQuiet = true) :
    f (run.log (.noted n)) = f run

open RunM

namespace RunM

/-- A computation that leaves alone what is observed. -/
def Spares (f : Run T S H P C → γ) (m : RunM T S H P C α) : Prop :=
  ∀ ⦃run a run'⦄, m run = .ok a run' → f run' = f run

variable {f : Run T S H P C → γ} {m : RunM T S H P C α}

theorem spares_pure {a : α} : (pure a : RunM T S H P C α).Spares f := by
  intro run a' run' h
  cases h
  rfl

theorem spares_throw {e : Failure} : (throw e : RunM T S H P C α).Spares f := by
  intro run a run' h
  cases h

theorem Spares.bind {k : α → RunM T S H P C β} (hm : m.Spares f) (hk : ∀ a, (k a).Spares f) :
    (m >>= k).Spares f := by
  intro run b run' h
  obtain ⟨a, mid, hrun, hrest⟩ := bind_eq_ok.mp h
  exact (hk a hrest).trans (hm hrun)

theorem spares_zerosLike [VectorSpace T V S] {x : V} :
    (zerosLike x : RunM T S H P C V).Spares f := by
  intro run v run' h
  cases h
  rfl

section Calls

variable (hf : Run.Overlooks f)

include hf

theorem spares_note {n : Note T} (quiet : n.isQuiet = true) :
    (note n : RunM T S H P C Unit).Spares f := by
  intro run a run' h
  cases h
  exact hf.note run n quiet

theorem spares_countIteration : (countIteration : RunM T S H P C Unit).Spares f := by
  intro run a run' h
  cases h
  exact hf.figures run _

theorem spares_setStepNorm {x : T} : (setStepNorm x : RunM T S H P C Unit).Spares f := by
  intro run a run' h
  cases h
  exact hf.figures run _

theorem spares_mapObjective {g : T → T} : (mapObjective g : RunM T S H P C Unit).Spares f := by
  intro run a run' h
  cases h
  exact hf.figures run _

section Space

variable [VectorSpace T V S] {a : T} {x y : V}

theorem spares_copy : (copy x y : RunM T S H P C V).Spares f := by
  intro run v run' h
  simp only [copy] at h
  rw [Run.eq_of_ofWritten h]
  exact hf.space run .copy _

theorem spares_dot : (dot x y : RunM T S H P C T).Spares f := by
  intro run v run' h
  simp only [dot] at h
  rw [Run.eq_of_ofAnswer h]
  exact hf.space run .dot _

theorem spares_norm : (norm x : RunM T S H P C T).Spares f := by
  intro run v run' h
  simp only [norm] at h
  rw [Run.eq_of_ofAnswer h]
  exact hf.space run .norm _

theorem spares_axpy : (axpy a x y : RunM T S H P C V).Spares f := by
  intro run v run' h
  simp only [axpy] at h
  rw [Run.eq_of_ofWritten h]
  exact hf.space run .axpy _

theorem spares_aypx : (aypx a x y : RunM T S H P C V).Spares f := by
  intro run v run' h
  simp only [aypx] at h
  rw [Run.eq_of_ofWritten h]
  exact hf.space run .aypx _

end Space

theorem spares_operate [ActsOn V H] {x y : V} : (operate x y : RunM T S H P C V).Spares f := by
  intro run v run' h
  simp only [operate] at h
  rw [Run.eq_of_ofWritten h]
  exact hf.operator run _

theorem spares_precondition [ActsOn V P] {x y : V} :
    (precondition x y : RunM T S H P C V).Spares f := by
  intro run v run' h
  simp only [precondition] at h
  rw [Run.eq_of_ofWritten h]
  exact hf.preconditioner run _

end Calls

end RunM

section Phases

variable [Scalar T] [VectorSpace T V S] {f : Run T S H P C → γ} (hf : Run.Overlooks f)
  {s : Settings T} {rhs : V}

include hf

theorem spares_start [ActsOn V P] : (start rhs : RunM T S H P C (Start T V)).Spares f := by
  refine spares_zerosLike.bind fun _ => (spares_copy hf).bind fun _ =>
    (spares_dot hf).bind fun _ => ?_
  split
  · exact (spares_precondition hf).bind fun _ => (spares_dot hf).bind fun _ => spares_pure
  · exact spares_throw

theorem spares_gradientStep [ActsOn V H] {rr : T} {step scratch : V} :
    (gradientStep s rhs rr step scratch : RunM T S H P C V).Spares f := by
  unfold gradientStep
  split
  · exact spares_pure
  · exact (spares_setStepNorm hf).bind fun _ => (spares_axpy hf).bind fun _ =>
      (spares_operate hf).bind fun _ => (spares_aypx hf).bind fun _ =>
      (spares_dot hf).bind fun _ => (spares_mapObjective hf).bind fun _ =>
      (spares_countIteration hf).bind fun _ => spares_pure

theorem spares_boundaryStep {tau curvature rz : T} {direction step : V} :
    (boundaryStep s tau curvature rz direction step : RunM T S H P C V).Spares f :=
  (spares_setStepNorm hf).bind fun _ => (spares_axpy hf).bind fun _ =>
    (spares_mapObjective hf).bind fun _ => spares_pure

theorem spares_residualNorm {r z : V} {rz : T} {known? : Option T} :
    (residualNorm s r z rz known? : RunM T S H P C T).Spares f := by
  unfold residualNorm
  split
  · exact spares_norm hf
  · split
    · exact spares_pure
    · exact spares_norm hf
  · exact spares_pure

theorem spares_leave [ActsOn V H] {rr : T} {it : Iterate T V} :
    (leave s rhs rr it : RunM T S H P C V).Spares f := by
  unfold leave
  split
  · split
    · exact spares_boundaryStep hf
    · exact spares_gradientStep hf
  · exact spares_pure

theorem spares_advance [ActsOn V P] {it : Iterate T V} :
    (advance s it : RunM T S H P C (Iterate T V)).Spares f := by
  refine (spares_axpy hf).bind fun _ => (spares_axpy hf).bind fun _ =>
    (spares_precondition hf).bind fun _ => ?_
  split
  all_goals
    refine .bind ?_ fun _ => (spares_setStepNorm hf).bind fun _ =>
      (spares_mapObjective hf).bind fun _ => (spares_dot hf).bind fun _ => spares_pure
  · exact spares_pure
  · exact spares_dot hf

theorem spares_turn [ActsOn V H] {it next : Iterate T V} :
    (turn s it next : RunM T S H P C (Phase V (Iterate T V))).Spares f := by
  refine (spares_aypx hf).bind fun _ => ?_
  split
  all_goals
    first
    | refine spares_pure.bind fun _ => ?_
    | refine (spares_dot hf).bind fun _ => (spares_dot hf).bind fun _ =>
        spares_pure.bind fun _ => ?_
    refine (spares_operate hf).bind fun _ => (spares_dot hf).bind fun _ =>
      (spares_countIteration hf).bind fun _ => ?_
    split
    · exact (spares_note hf rfl).bind fun _ => spares_pure
    · split
      · exact (spares_note hf rfl).bind fun _ => spares_pure
      · exact spares_pure

section Judge

variable [ConvergenceTest T C]

theorem first_judges [ActsOn V H] {b : Start T V} {phase : Phase V (Iterate T V)}
    {run run' : Run T S H P C} (h : first s rhs b run = .ok phase run') :
    ∃ norm run₁ verdict run₂,
      residualNorm s b.residual b.preconditioned b.rz (some (Scalar.sqrt b.rr)) run =
        .ok norm run₁ ∧
      judge 0 norm run₁ = .ok verdict run₂ ∧ f run' = f run₂ := by
  simp only [first, bind_eq_ok (m := residualNorm _ _ _ _ _), bind_eq_ok (m := judge _ _)] at h
  obtain ⟨norm, run₁, hnorm, verdict, run₂, hjudge, h⟩ := h
  refine ⟨norm, run₁, verdict, run₂, hnorm, hjudge, ?_⟩
  refine (spares_note hf rfl).bind (fun _ => (spares_copy hf).bind fun _ =>
    (spares_operate hf).bind fun _ => (spares_countIteration hf).bind fun _ =>
    (spares_dot hf).bind fun _ => ?_) h
  split
  · exact (spares_note hf rfl).bind fun _ => (spares_gradientStep hf).bind fun _ => spares_pure
  · split
    all_goals
      first
      | refine spares_pure.bind fun _ => ?_
      | refine (spares_dot hf).bind fun _ => ?_
      split
      · exact (spares_note hf rfl).bind fun _ => (spares_leave hf).bind fun _ => spares_pure
      · exact spares_pure

/-- A review asks the convergence test once, unless it finds the preconditioner indefinite, and
does what the test answers. It stops of itself only for a vanished coefficient. -/
theorem review_judges {it next : Iterate T V} {outcome : Option Reason}
    {run run' : Run T S H P C} (h : review s it next run = .ok outcome run') :
    (next.rz < 0 ∧ outcome = some .indefinitePreconditioner ∧ f run' = f run) ∨
    ∃ norm run₁ verdict run₂, ¬ next.rz < 0 ∧
      residualNorm s next.residual next.preconditioned next.rz none run = .ok norm run₁ ∧
      judge run₁.figures.iterations norm run₁ = .ok verdict run₂ ∧ f run' = f run₂ ∧
      (outcome = verdict.reason? ∨ verdict = .iterating ∧ outcome = some .breakdown) := by
  unfold review at h
  split at h
  · next neg =>
    obtain ⟨_, _, ⟨⟩, ⟨⟩⟩ := bind_eq_ok.mp h
    exact .inl ⟨neg, rfl, hf.note run _ rfl⟩
  · next nonneg =>
    simp only [bind_eq_ok, iterations_apply, exists_ok_eq] at h
    obtain ⟨norm, run₁, hnorm, verdict, run₂, hjudge, h⟩ := h
    refine .inr ⟨norm, run₁, verdict, run₂, nonneg, hnorm, hjudge, ?_⟩
    cases verdict with
    | converged why =>
      cases h
      exact ⟨hf.note run₂ _ rfl, .inl rfl⟩
    | diverged why =>
      cases h
      exact ⟨hf.note run₂ _ rfl, .inl rfl⟩
    | iterating =>
      simp only [bind_eq_ok, iterations_apply, note_apply, exists_ok_eq] at h
      have recurs := hf.note run₂ (.recurrence run₂.figures.iterations next.rz (it.beta next)) rfl
      split at h
      · cases h
        exact ⟨(hf.note _ _ rfl).trans recurs, .inr ⟨rfl, rfl⟩⟩
      · cases h
        exact ⟨recurs, .inl rfl⟩

end Judge

end Phases

end TrustRegion
