import TrustRegion.Proofs.Run
import TrustRegion.Solver.Basic

/-! The course of a solve: the passes that it reaches, and the ways in which it can end. -/
namespace TrustRegion

variable {T V S H P C : Type} [Scalar T]

/-- Whether the full step from a pass would reach the boundary. -/
def Iterate.Crosses (s : Settings T) (it : Iterate T V) : Prop :=
  s.isConstrained = true ∧ it.nextSq ≥ s.radiusSq

def Run.enter (run : Run T S H P C) (it : Iterate T V) : Run T S H P C :=
  run.log (.noted (.pass run.figures.iterations it.alpha it.curvature it.nextSq))

section Solve

variable [VectorSpace T V S] [ActsOn V H] [ActsOn V P] [ConvergenceTest T C]

/-- A pass that takes its full step, to `next`. -/
structure FullStep (s : Settings T) (it : Iterate T V) (run : Run T S H P C)
    (next : Iterate T V) (run' : Run T S H P C) : Prop where
  inside : ¬ it.Crosses s
  advances : advance s it (run.enter it) = .ok next run'

def iterationCap (rhs : V) (maxIterations : Nat) (start : Run T S H P C) : Nat :=
  min maxIterations (VectorSpace.dimension start.space rhs)

variable (s : Settings T) (rhs : V) (maxIterations : Nat) (run₀ : Run T S H P C)

/-- A solve that begins as `run₀` comes, after `k` full steps, to a pass from the iterate. -/
inductive ReachesPass : Nat → Iterate T V → Run T S H P C → Prop where
  | first {b : Start T V} {it : Iterate T V} {run₁ run₂ : Run T S H P C}
      (starts : start rhs run₀ = .ok b run₁) (finite : Scalar.isFinite b.rz = true)
      (nonneg : ¬ b.rz < 0) (goes : first s rhs b run₁ = .ok (.going it) run₂) :
      ReachesPass 0 it run₂
  | next {k : Nat} {it next it' : Iterate T V} {run run₁ run₂ run₃ : Run T S H P C}
      (pass : ReachesPass k it run) (full : FullStep s it run next run₁)
      (reviews : review s it next run₁ = .ok none run₂)
      (below : k + 1 < iterationCap rhs maxIterations run₀)
      (turns : turn s it next run₂ = .ok (.going it') run₃) : ReachesPass (k + 1) it' run₃

/-- The ways in which a solve that begins as `run₀` ends without a failure, with the number of
full steps that it has taken. -/
inductive Ends : Nat → Stop V → Run T S H P C → Prop where
  | badPreconditioner {b : Start T V} {step : V} {run₁ run₂ : Run T S H P C}
      (starts : start rhs run₀ = .ok b run₁) (infinite : Scalar.isFinite b.rz = false)
      (falls : gradientStep s rhs b.rr b.zero b.zero
        (run₁.log (.noted (.badPreconditioner b.rz))) = .ok step run₂) :
      Ends 0 ⟨.badPreconditioner, step⟩ run₂
  | indefinitePreconditioner {b : Start T V} {step : V} {run₁ run₂ : Run T S H P C}
      (starts : start rhs run₀ = .ok b run₁) (finite : Scalar.isFinite b.rz = true)
      (neg : b.rz < 0)
      (falls : gradientStep s rhs b.rr b.zero b.zero
        (run₁.log (.noted (.indefinitePreconditioner b.rz))) = .ok step run₂) :
      Ends 0 ⟨.indefinitePreconditioner, step⟩ run₂
  | first {b : Start T V} {reason : Reason} {step : V} {run₁ run₂ : Run T S H P C}
      (starts : start rhs run₀ = .ok b run₁) (finite : Scalar.isFinite b.rz = true)
      (nonneg : ¬ b.rz < 0) (stops : first s rhs b run₁ = .ok (.stopped reason step) run₂) :
      Ends 0 ⟨reason, step⟩ run₂
  | boundary {k : Nat} {it : Iterate T V} {step : V} {run run₁ : Run T S H P C}
      (pass : ReachesPass s rhs maxIterations run₀ k it run) (crosses : it.Crosses s)
      (truncates : truncate s it (run.enter it) = .ok step run₁) :
      Ends k ⟨.constrainedStep, step⟩ run₁
  | review {k : Nat} {it next : Iterate T V} {reason : Reason} {run run₁ run₂ : Run T S H P C}
      (pass : ReachesPass s rhs maxIterations run₀ k it run) (full : FullStep s it run next run₁)
      (stops : review s it next run₁ = .ok (some reason) run₂) :
      Ends (k + 1) ⟨reason, next.step⟩ run₂
  | limit {k : Nat} {it next : Iterate T V} {run run₁ run₂ : Run T S H P C}
      (pass : ReachesPass s rhs maxIterations run₀ k it run) (full : FullStep s it run next run₁)
      (reviews : review s it next run₁ = .ok none run₂)
      (reached : iterationCap rhs maxIterations run₀ ≤ k + 1) :
      Ends (k + 1) ⟨.iterationLimit, next.step⟩
        (run₂.log (.noted (.iterationLimit run₂.figures.iterations)))
  | turn {k : Nat} {it next : Iterate T V} {reason : Reason} {step : V}
      {run run₁ run₂ run₃ : Run T S H P C}
      (pass : ReachesPass s rhs maxIterations run₀ k it run) (full : FullStep s it run next run₁)
      (reviews : review s it next run₁ = .ok none run₂)
      (below : k + 1 < iterationCap rhs maxIterations run₀)
      (stops : turn s it next run₂ = .ok (.stopped reason step) run₃) :
      Ends (k + 1) ⟨reason, step⟩ run₃

variable {s rhs maxIterations run₀}

open RunM

theorem ends_of_passes (remaining : Nat) {k : Nat} {it : Iterate T V} {run run' : Run T S H P C}
    {stop : Stop V} (pass : ReachesPass s rhs maxIterations run₀ k it run)
    (left : remaining = iterationCap rhs maxIterations run₀ - (k + 1))
    (h : passes s remaining it run = .ok stop run') :
    ∃ k', Ends s rhs maxIterations run₀ k' stop run' := by
  rw [passes.eq_def] at h
  simp only [bind_eq_ok, iterations_apply, note_apply, exists_ok_eq, Bool.and_eq_true,
    decide_eq_true_eq] at h
  split at h
  · next crosses =>
    simp only [bind_eq_ok, pure_apply] at h
    obtain ⟨step, run₁, ht, ⟨⟩⟩ := h
    exact ⟨k, .boundary pass crosses ht⟩
  · next inside =>
    simp only [bind_eq_ok] at h
    obtain ⟨next, run₁, ha, outcome, run₂, hr, h⟩ := h
    have full : FullStep s it run next run₁ := ⟨inside, ha⟩
    cases outcome with
    | some reason =>
      cases h
      exact ⟨k + 1, .review pass full hr⟩
    | none =>
      cases remaining with
      | zero =>
        cases h
        exact ⟨k + 1, .limit pass full hr (by omega)⟩
      | succ remaining =>
        have below : k + 1 < iterationCap rhs maxIterations run₀ := by omega
        simp only [bind_eq_ok] at h
        obtain ⟨phase, run₃, ht, h⟩ := h
        cases phase with
        | stopped reason step =>
          cases h
          exact ⟨k + 1, .turn pass full hr below ht⟩
        | going it' => exact ends_of_passes remaining (.next pass full hr below ht) (by omega) h

/-- The passes that are reached account for the whole solve. -/
theorem ends_of_iterate {stop : Stop V} {run : Run T S H P C}
    (h : iterate s rhs maxIterations run₀ = .ok stop run) :
    ∃ k, Ends s rhs maxIterations run₀ k stop run := by
  simp only [iterate, bind_eq_ok, dimension_apply, exists_ok_eq] at h
  obtain ⟨b, run₁, hs, h⟩ := h
  split at h
  · next infinite =>
    simp only [bind_eq_ok, note_apply, exists_ok_eq, pure_apply] at h
    obtain ⟨step, run₂, hg, ⟨⟩⟩ := h
    exact ⟨0, .badPreconditioner hs (by simpa using infinite) hg⟩
  · next finite =>
    have finite : Scalar.isFinite b.rz = true := by simpa using finite
    split at h
    · next neg =>
      simp only [bind_eq_ok, note_apply, exists_ok_eq, pure_apply] at h
      obtain ⟨step, run₂, hg, ⟨⟩⟩ := h
      exact ⟨0, .indefinitePreconditioner hs finite neg hg⟩
    · next nonneg =>
      simp only [bind_eq_ok] at h
      obtain ⟨phase, run₂, hf, h⟩ := h
      cases phase with
      | stopped reason step =>
        cases h
        exact ⟨0, .first hs finite nonneg hf⟩
      | going it => exact ends_of_passes _ (.first hs finite nonneg hf) rfl h

variable (s) in
def conclude (remaining : Nat) (it next : Iterate T V) : RunM T S H P C (Stop V) := do
  match ← review s it next with
  | some reason => return ⟨reason, next.step⟩
  | none =>
    match remaining with
    | 0 =>
      note (.iterationLimit (← iterations))
      return ⟨.iterationLimit, next.step⟩
    | remaining + 1 =>
      match ← turn s it next with
      | .stopped reason step => return ⟨reason, step⟩
      | .going it => passes s remaining it

theorem passes_crossing (remaining : Nat) {it : Iterate T V} {run : Run T S H P C}
    (crosses : it.Crosses s) :
    passes s remaining it run =
      (do return ⟨.constrainedStep, ← truncate s it⟩ : RunM T S H P C (Stop V)) (run.enter it) := by
  cases remaining
  all_goals
    rw [passes, bind_of_ok (iterations_apply _), bind_of_ok (note_apply _ _),
      if_pos (by simpa [Iterate.Crosses] using crosses)]
    rfl

theorem passes_inside (remaining : Nat) {it : Iterate T V} {run : Run T S H P C}
    (inside : ¬ it.Crosses s) :
    passes s remaining it run = (advance s it >>= conclude s remaining it) (run.enter it) := by
  cases remaining
  all_goals
    rw [passes, bind_of_ok (iterations_apply _), bind_of_ok (note_apply _ _),
      if_neg (by simpa [Iterate.Crosses] using inside)]
    rfl

theorem passes_of_crosses (remaining : Nat) {it : Iterate T V} {step : V}
    {run run₁ : Run T S H P C} (crosses : it.Crosses s)
    (truncates : truncate s it (run.enter it) = .ok step run₁) :
    passes s remaining it run = .ok ⟨.constrainedStep, step⟩ run₁ :=
  (passes_crossing remaining crosses).trans (bind_of_ok truncates)

theorem passes_of_full (remaining : Nat) {it next : Iterate T V} {run run₁ : Run T S H P C}
    (full : FullStep s it run next run₁) :
    passes s remaining it run = conclude s remaining it next run₁ :=
  (passes_inside remaining full.inside).trans (bind_of_ok full.advances)

/-- A pass that is reached is one that the rest of the solve consists of. -/
theorem ReachesPass.iterate_eq {k : Nat} {it : Iterate T V} {run : Run T S H P C}
    (pass : ReachesPass s rhs maxIterations run₀ k it run) :
    iterate s rhs maxIterations run₀ =
      passes s (iterationCap rhs maxIterations run₀ - (k + 1)) it run := by
  induction pass with
  | first starts finite nonneg goes =>
    rw [iterate, bind_of_ok (dimension_apply _ _), bind_of_ok starts,
      if_neg (by simp [finite]), if_neg nonneg, bind_of_ok goes]
    rfl
  | @next k it next it' run run₁ run₂ run₃ _ full reviews below turns ih =>
    obtain ⟨left, hleft⟩ : ∃ left, iterationCap rhs maxIterations run₀ - (k + 1) = left + 1 :=
      Nat.exists_eq_succ_of_ne_zero (by omega)
    have hnext : iterationCap rhs maxIterations run₀ - (k + 1 + 1) = left := by omega
    rw [ih, hleft, hnext, passes_of_full _ full]
    exact (bind_of_ok reviews).trans (bind_of_ok turns)

/-- The ways to end are those in which a solve does end. -/
theorem Ends.iterate_eq {k : Nat} {stop : Stop V} {run : Run T S H P C}
    (ends : Ends s rhs maxIterations run₀ k stop run) :
    iterate s rhs maxIterations run₀ = .ok stop run := by
  cases ends with
  | badPreconditioner starts infinite falls =>
    rw [iterate, bind_of_ok (dimension_apply _ _), bind_of_ok starts, if_pos (by simp [infinite]),
      bind_of_ok (note_apply _ _), bind_of_ok falls]
    rfl
  | indefinitePreconditioner starts finite neg falls =>
    rw [iterate, bind_of_ok (dimension_apply _ _), bind_of_ok starts, if_neg (by simp [finite]),
      if_pos neg, bind_of_ok (note_apply _ _), bind_of_ok falls]
    rfl
  | first starts finite nonneg stops =>
    rw [iterate, bind_of_ok (dimension_apply _ _), bind_of_ok starts, if_neg (by simp [finite]),
      if_neg nonneg, bind_of_ok stops]
    rfl
  | boundary pass crosses truncates =>
    rw [pass.iterate_eq]
    exact passes_of_crosses _ crosses truncates
  | review pass full stops =>
    rw [pass.iterate_eq, passes_of_full _ full]
    exact bind_of_ok stops
  | limit pass full reviews reached =>
    rw [pass.iterate_eq, passes_of_full _ full, Nat.sub_eq_zero_of_le reached]
    exact bind_of_ok reviews
  | @turn k it next reason step run run₁ run₂ run₃ pass full reviews below stops =>
    obtain ⟨left, hleft⟩ : ∃ left, iterationCap rhs maxIterations run₀ - (k + 1) = left + 1 :=
      Nat.exists_eq_succ_of_ne_zero (by omega)
    rw [pass.iterate_eq, passes_of_full _ full, hleft]
    exact (bind_of_ok reviews).trans (bind_of_ok stops)

theorem ReachesPass.exists_of_le {i k : Nat} {it : Iterate T V} {run : Run T S H P C}
    (pass : ReachesPass s rhs maxIterations run₀ k it run) (h : i ≤ k) :
    ∃ it run, ReachesPass s rhs maxIterations run₀ i it run := by
  induction pass with
  | first starts finite nonneg goes =>
    obtain rfl := Nat.le_zero.mp h
    exact ⟨_, _, .first starts finite nonneg goes⟩
  | next pass full reviews below turns ih =>
    obtain hle | rfl := Nat.le_succ_iff.mp h
    · exact ih hle
    · exact ⟨_, _, .next pass full reviews below turns⟩

theorem ReachesPass.unique {k : Nat} {it it' : Iterate T V} {run run' : Run T S H P C}
    (pass : ReachesPass s rhs maxIterations run₀ k it run)
    (pass' : ReachesPass s rhs maxIterations run₀ k it' run') : it = it' ∧ run = run' := by
  induction pass generalizing it' run' with
  | first starts _ _ goes =>
    cases pass' with
    | first starts' _ _ goes' =>
      cases starts.symm.trans starts'
      cases goes.symm.trans goes'
      exact ⟨rfl, rfl⟩
  | next _ full reviews _ turns ih =>
    cases pass' with
    | next pass' full' reviews' _ turns' =>
      obtain ⟨rfl, rfl⟩ := ih pass'
      cases full.advances.symm.trans full'.advances
      cases reviews.symm.trans reviews'
      cases turns.symm.trans turns'
      exact ⟨rfl, rfl⟩

end Solve

def Collaborators.begin (cs : Collaborators S H P C) : Run T S H P C :=
  { cs with figures := .zero, latest := [] }

namespace Solver

variable [VectorSpace T V S] [ActsOn V H] [ActsOn V P] [ConvergenceTest T C]

theorem solve_eq_ok {solver : Solver T} {cs : Collaborators S H P C} {rhs : V} {m : Nat}
    {solution : Solution T V} (h : (solver.solve cs rhs m).result = .ok solution) :
    solver.settings.validate = .ok () ∧ ∃ k stop run,
      TrustRegion.Ends solver.settings rhs m cs.begin k stop run ∧
      solution.step = stop.step ∧ solution.reason = stop.reason ∧
      solution.stepNorm = run.figures.stepNorm ∧ solution.objective = run.figures.objective ∧
      solution.iterations = run.figures.iterations ∧
      (solver.solve cs rhs m).events =
        (Event.terminated stop.reason run.figures.iterations :: run.latest).reverse ∧
      solution.residualNorm? = (Event.residuals run.latest).head?.map (·.2) := by
  unfold solve at h
  split at h
  · cases h
  · next hv =>
    split at h
    · cases h
    · next stop run hi =>
      obtain ⟨k, ends⟩ := ends_of_iterate hi
      cases h
      refine ⟨hv, k, stop, run, ends, rfl, rfl, rfl, rfl, rfl, ?_, ?_⟩
      · simp [solve, hv, hi]
      · simp [observe, reportOf, Event.residuals, Run.log]

end Solver

end TrustRegion
