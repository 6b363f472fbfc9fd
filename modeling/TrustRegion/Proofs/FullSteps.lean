import TrustRegion.Proofs.Frame
import TrustRegion.Proofs.Passes

/-! The full steps of a solve, counted in its events. -/
namespace TrustRegion

namespace Event

variable {T : Type}

def isPass : Event T → Bool
  | noted (.pass ..) => true
  | _ => false

/-- Whether a pass is cut off at the boundary. -/
def isCut : Event T → Bool
  | noted .constrainedStep => true
  | _ => false

/-- The number of full steps: of the passes that were not cut off. -/
def fullSteps (events : List (Event T)) : Nat := events.countP isPass - events.countP isCut

def marksPass (event : Event T) : Bool := event.isPass || event.isCut

end Event

variable {T V S H P C : Type}

open RunM

/-- The events that mark a pass, the latest first. -/
def Run.marks (run : Run T S H P C) : List (Event T) := run.latest.filter Event.marksPass

theorem overlooks_marks : Run.Overlooks (Run.marks : Run T S H P C → List (Event T)) where
  space _ _ _ := rfl
  operator _ _ := rfl
  preconditioner _ _ := rfl
  figures _ _ := rfl
  note _ n quiet := by
    have unmarked : (Event.noted n).marksPass = false := by
      cases n with
      | pass | constrainedStep => exact absurd quiet Bool.false_ne_true
      | _ => rfl
    exact List.filter_cons_of_neg (by simp [unmarked])

section Phases

variable {s : Settings T} {rhs : V}

theorem marks_judge [ConvergenceTest T C] {i : Nat} {x : T} :
    (judge i x : RunM T S H P C Verdict).Spares Run.marks := by
  intro run verdict run' h
  obtain ⟨_, _, ⟨⟩, ⟨⟩⟩ := bind_eq_ok.mp h
  rfl

variable [Scalar T] [VectorSpace T V S] [ConvergenceTest T C]

theorem marks_first [ActsOn V H] {b : Start T V} :
    (first s rhs b : RunM T S H P C (Phase V (Iterate T V))).Spares Run.marks := by
  intro run phase run' h
  obtain ⟨norm, run₁, verdict, run₂, hnorm, hjudge, heq⟩ := first_judges overlooks_marks h
  rw [heq, marks_judge hjudge, spares_residualNorm overlooks_marks hnorm]

theorem marks_review {it next : Iterate T V} :
    (review s it next : RunM T S H P C (Option Reason)).Spares Run.marks := by
  intro run outcome run' h
  obtain ⟨-, -, heq⟩ | ⟨norm, run₁, verdict, run₂, -, hnorm, hjudge, heq, -⟩ :=
    review_judges overlooks_marks h
  · exact heq
  · rw [heq, marks_judge hjudge, spares_residualNorm overlooks_marks hnorm]

end Phases

section Count

namespace Event

theorem fullSteps_filter (events : List (Event T)) :
    fullSteps (events.filter marksPass) = fullSteps events := by
  have pass : (fun e : Event T => e.isPass && e.marksPass) = isPass := by
    funext e
    cases h : e.isPass <;> simp [marksPass, h]
  have cut : (fun e : Event T => e.isCut && e.marksPass) = isCut := by
    funext e
    cases h : e.isCut <;> simp [marksPass, h]
  unfold fullSteps
  rw [List.countP_filter, List.countP_filter, pass, cut]

end Event

variable [Scalar T] [VectorSpace T V S] [ActsOn V H] [ActsOn V P] [ConvergenceTest T C]
  {s : Settings T} {rhs : V} {m k : Nat} {run₀ run run' : Run T S H P C} {it next : Iterate T V}
  {stop : Stop V}

omit [VectorSpace T V S] [ActsOn V H] [ActsOn V P] [ConvergenceTest T C] in
theorem Run.marks_enter : (run.enter it).marks =
    .noted (.pass run.figures.iterations it.alpha it.curvature it.nextSq) :: run.marks :=
  rfl

omit [ActsOn V H] [ActsOn V P] [ConvergenceTest T C] in
theorem marks_truncate {step : V} (h : truncate s it run = .ok step run') :
    run'.marks = .noted .constrainedStep :: run.marks := by
  obtain ⟨_, _, ⟨⟩, h⟩ := bind_eq_ok.mp h
  split at h
  · exact spares_boundaryStep overlooks_marks h
  · cases h
    rfl

omit [ActsOn V H] [ActsOn V P] [ConvergenceTest T C] [VectorSpace T V S] in
theorem counts_enter (it : Iterate T V) {passes cuts : Nat}
    (h : run.marks.countP Event.isPass = passes ∧ run.marks.countP Event.isCut = cuts) :
    (run.enter it).marks.countP Event.isPass = passes + 1 ∧
      (run.enter it).marks.countP Event.isCut = cuts := by
  rw [Run.marks_enter]
  constructor
  · rw [List.countP_cons_of_pos rfl, h.1]
  · rw [List.countP_cons_of_neg Bool.false_ne_true, h.2]

theorem ReachesPass.counts (pass : ReachesPass s rhs m run₀ k it run) (h₀ : run₀.latest = []) :
    run.marks.countP Event.isPass = k ∧ run.marks.countP Event.isCut = 0 := by
  induction pass with
  | first starts _ _ goes =>
    rw [marks_first goes, spares_start overlooks_marks starts, Run.marks, h₀]
    exact ⟨rfl, rfl⟩
  | next _ full reviews _ turns ih =>
    rw [spares_turn overlooks_marks turns, marks_review reviews,
      spares_advance overlooks_marks full.advances]
    exact counts_enter _ ih

theorem FullStep.fullSteps_eq (full : FullStep s it run next run')
    (pass : ReachesPass s rhs m run₀ k it run) (h₀ : run₀.latest = []) :
    Event.fullSteps run'.marks = k + 1 := by
  obtain ⟨hp, hc⟩ := counts_enter it (pass.counts h₀)
  rw [spares_advance overlooks_marks full.advances, Event.fullSteps, hp, hc, Nat.sub_zero]

/-- The number of full steps of a solve can be read off its events. -/
theorem Ends.fullSteps_eq (ends : Ends s rhs m run₀ k stop run) (h₀ : run₀.latest = []) :
    Event.fullSteps run.latest = k := by
  rw [← Event.fullSteps_filter, ← Run.marks]
  have first {b : Start T V} {run₁ : Run T S H P C} (starts : start rhs run₀ = .ok b run₁) :
      run₁.marks = [] := by
    rw [spares_start overlooks_marks starts, Run.marks, h₀, List.filter_nil]
  cases ends with
  | badPreconditioner starts _ falls =>
    rw [spares_gradientStep overlooks_marks falls]
    exact congrArg Event.fullSteps (first starts)
  | indefinitePreconditioner starts _ _ falls =>
    rw [spares_gradientStep overlooks_marks falls]
    exact congrArg Event.fullSteps (first starts)
  | first starts _ _ stops =>
    rw [marks_first stops]
    exact congrArg Event.fullSteps (first starts)
  | @boundary _ it _ _ _ pass _ truncates =>
    obtain ⟨hp, hc⟩ := counts_enter it (pass.counts h₀)
    rw [marks_truncate truncates, Event.fullSteps, List.countP_cons_of_neg Bool.false_ne_true,
      List.countP_cons_of_pos rfl, hp, hc]
    rfl
  | review pass full stops =>
    rw [marks_review stops]
    exact full.fullSteps_eq pass h₀
  | limit pass full reviews =>
    exact (congrArg Event.fullSteps (marks_review reviews)).trans (full.fullSteps_eq pass h₀)
  | turn pass full reviews _ stops =>
    rw [spares_turn overlooks_marks stops, marks_review reviews]
    exact full.fullSteps_eq pass h₀

theorem Ends.fullSteps_events {reason : Reason} {i : Nat} (ends : Ends s rhs m run₀ k stop run)
    (h₀ : run₀.latest = []) :
    Event.fullSteps (Event.terminated reason i :: run.latest).reverse = k := by
  unfold Event.fullSteps
  rw [List.countP_reverse, List.countP_reverse,
    List.countP_cons_of_neg Bool.false_ne_true, List.countP_cons_of_neg Bool.false_ne_true]
  exact ends.fullSteps_eq h₀

end Count

end TrustRegion
