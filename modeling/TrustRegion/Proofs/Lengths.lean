import TrustRegion.Operator.Rule
import TrustRegion.Proofs.Norms
import TrustRegion.Proofs.Recorded

/-! Solves in the Euclidean space whose collaborators may leave vectors of any length: what has been
left is held against a vector of the right length before the next application and before the end. -/
namespace TrustRegion

variable {T H P C : Type}

structure Start.Sized (n : Nat) (b : Start T (List T)) : Prop where
  zero : b.zero.length = n
  residual : b.residual.length = n
  preconditioned : b.preconditioned.length = n

structure Iterate.Sized (n : Nat) (it : Iterate T (List T)) : Prop where
  step : it.step.length = n
  residual : it.residual.length = n
  preconditioned : it.preconditioned.length = n
  direction : it.direction.length = n
  product : it.product.length = n

/-- All vectors that a phase hands on have `n` entries. -/
def Phase.Sized (n : Nat) : Phase (List T) (Iterate T (List T)) → Prop
  | .stopped _ step => step.length = n
  | .going it => it.Sized n

open RunM Run

variable [Scalar T] {s : Settings T} {n l : Nat} {rhs step scratch direction : List T}
  {b : Start T (List T)} {p : Probe T (List T)} {it next : Iterate T (List T)} {rr : T}
  {run : Run T (Euclidean T) (Recorded (List T) H) (Recorded (List T) P) C}

section Phases

theorem checked_boundaryStep {tau curvature rz : T} (hdirection : direction.length = n)
    (hstep : step.length = n) (h : run.Owes n n) :
    Checked n (fun v run => v.length = n ∧ run.Owes n n)
      (boundaryStep s tau curvature rz direction step run)
      (boundaryStep s tau curvature rz direction step run.bare) := by
  unfold boundaryStep
  refine checked_bind (checked_quiet rfl rfl rfl h) fun _ _ h => ?_
  refine checked_bind (checked_axpy hdirection hstep h) fun step _ ⟨hstep, h⟩ => ?_
  refine checked_bind (checked_quiet rfl rfl rfl h) fun _ _ h => ?_
  exact checked_pure ⟨hstep, h⟩

theorem checked_residualNorm {r z : List T} {rz : T} {known? : Option T} (h : run.Owes n l) :
    Checked n (fun _ run => run.Owes n l) (residualNorm s r z rz known? run)
      (residualNorm s r z rz known? run.bare) := by
  unfold residualNorm
  cases s.residualNorm with
  | preconditioned => exact checked_norm h
  | natural => exact checked_pure h
  | unpreconditioned =>
    cases known? with
    | some known => exact checked_pure h
    | none => exact checked_norm h

theorem checked_measure (hdirection : direction.length = n) (h : run.Owes n l) :
    Checked n (fun _ run => run.Owes n l) (measure s b direction run)
      (measure s b direction run.bare) := by
  unfold measure
  cases s.directionNorm with
  | preconditioned => exact checked_pure h
  | unpreconditioned => exact checked_dot hdirection hdirection h

theorem checked_truncate (sized : it.Sized n) (h : run.Owes n n) :
    Checked n (fun v run => v.length = n ∧ run.Owes n n) (truncate s it run)
      (truncate s it run.bare) := by
  unfold truncate
  refine checked_bind (checked_quiet rfl rfl rfl h) fun _ _ h => ?_
  split
  · exact checked_boundaryStep sized.direction sized.step h
  · exact checked_pure ⟨sized.step, h⟩

theorem checked_trackStep (hstep : step.length = n) (h : run.Owes n l) :
    Checked n (fun _ run => run.Owes n l) (trackStep s it step run)
      (trackStep s it step run.bare) := by
  unfold trackStep
  cases s.directionNorm with
  | preconditioned => exact checked_pure h
  | unpreconditioned => exact checked_dot hstep hstep h

theorem checked_trackTurn (sized : next.Sized n) (hdirection : direction.length = n)
    (h : run.Owes n l) :
    Checked n (fun _ run => run.Owes n l) (trackTurn s it next direction run)
      (trackTurn s it next direction run.bare) := by
  unfold trackTurn
  cases s.directionNorm with
  | preconditioned => exact checked_pure h
  | unpreconditioned =>
    refine checked_bind (checked_dot sized.step hdirection h) fun _ _ h => ?_
    refine checked_bind (checked_dot hdirection hdirection h) fun _ _ h => ?_
    exact checked_pure h

section Preconditioner

variable [ActsOn (List T) P]

theorem checked_start (hrhs : rhs.length = n) (h : run.Owes n n) :
    Checked n (fun b run => b.Sized n ∧ run.Owes n n) (start rhs run) (start rhs run.bare) := by
  unfold start
  refine checked_bind (checked_zerosLike hrhs h) fun zero _ ⟨hzero, h⟩ => ?_
  refine checked_bind (checked_copy hrhs hzero h) fun residual _ ⟨hresidual, h⟩ => ?_
  refine checked_bind (checked_dot hresidual hresidual h) fun rr _ h => ?_
  split
  · refine checked_bind (checked_precondition hresidual hzero h) fun z _ h => ?_
    refine checked_bind (checked_dot_last hresidual h) fun rz _ ⟨hz, h⟩ => ?_
    exact checked_pure ⟨⟨hzero, hresidual, hz⟩, h⟩
  · exact checked_throw h _

/-- Between the preconditioner and the product that looks at what it has left, only vectors that are
known to have the right length are multiplied. -/
theorem checked_advance (sized : it.Sized n) (h : run.Owes n n) :
    Checked n (fun next run => next.Sized n ∧ run.Owes n n) (advance s it run)
      (advance s it run.bare) := by
  rw [advance_eq, advance_eq]
  refine checked_bind (checked_axpy sized.direction sized.step h) fun step _ ⟨hstep, h⟩ => ?_
  refine checked_bind (checked_axpy sized.product sized.residual h)
    fun residual _ ⟨hresidual, h⟩ => ?_
  refine checked_bind (checked_precondition hresidual sized.preconditioned h) fun z _ h => ?_
  refine checked_bind (checked_trackStep hstep h) fun stepSq _ h => ?_
  refine checked_bind (checked_quiet rfl rfl rfl h) fun _ _ h => ?_
  refine checked_bind (checked_quiet rfl rfl rfl h) fun _ _ h => ?_
  refine checked_bind (checked_dot_last hresidual h) fun rz _ ⟨hz, h⟩ => ?_
  exact checked_pure ⟨⟨hstep, hresidual, hz, sized.direction, sized.product⟩, h⟩

end Preconditioner

section Operator

variable [ActsOn (List T) H]

theorem checked_gradientStep (hrhs : rhs.length = n) (hstep : step.length = n)
    (hscratch : scratch.length = n) (h : run.Owes n n) :
    Checked n (fun v run => v.length = n ∧ run.Owes n n) (gradientStep s rhs rr step scratch run)
      (gradientStep s rhs rr step scratch run.bare) := by
  unfold gradientStep
  split
  · exact checked_pure ⟨hstep, h⟩
  · refine checked_bind (checked_quiet rfl rfl rfl h) fun _ _ h => ?_
    refine checked_bind (checked_axpy hrhs hstep h) fun step _ ⟨hstep, h⟩ => ?_
    refine checked_bind (checked_operate hstep hscratch h) fun product _ h => ?_
    refine checked_bind (checked_aypx_last hrhs h) fun difference _ ⟨hdifference, h⟩ => ?_
    refine checked_bind (checked_dot hstep hdifference h) fun value _ h => ?_
    refine checked_bind (checked_quiet rfl rfl rfl h) fun _ _ h => ?_
    refine checked_bind (checked_quiet rfl rfl rfl h) fun _ _ h => ?_
    exact checked_pure ⟨hstep, h⟩

theorem checked_fallBack (note : Note T) (reason : Reason) (hrhs : rhs.length = n)
    (sized : b.Sized n) (h : run.Owes n n) :
    let fallBack {H P : Type} [ActsOn (List T) H] : RunM T (Euclidean T) H P C (Stop (List T)) := do
      RunM.note note
      return ⟨reason, ← gradientStep s rhs b.rr b.zero b.zero⟩
    Checked n (fun stop run => stop.step.length = n ∧ run.Owes n n) (fallBack run)
      (fallBack run.bare) := by
  refine checked_bind (checked_quiet rfl rfl rfl h) fun _ _ h => ?_
  refine checked_bind (checked_gradientStep hrhs sized.zero sized.zero h)
    fun step _ ⟨hstep, h⟩ => ?_
  exact checked_pure ⟨hstep, h⟩

theorem checked_leave (hrhs : rhs.length = n) (sized : it.Sized n) (h : run.Owes n n) :
    Checked n (fun v run => v.length = n ∧ run.Owes n n) (leave s rhs rr it run)
      (leave s rhs rr it run.bare) := by
  unfold leave
  split
  · split
    · exact checked_boundaryStep sized.direction sized.step h
    · exact checked_gradientStep hrhs sized.step sized.product h
  · exact checked_pure ⟨sized.step, h⟩

theorem checked_depart (hrhs : rhs.length = n) (sized : ∀ d, (b.iterate p d).Sized n)
    (h : run.Owes n n) :
    Checked n (fun phase run => phase.Sized n ∧ run.Owes n n) (depart s rhs b p run)
      (depart s rhs b p run.bare) := by
  have hzero : b.zero.length = n := (sized 0).step
  have hproduct : p.product.length = n := (sized 0).product
  unfold depart
  split
  · refine checked_bind (checked_quiet rfl rfl rfl h) fun _ _ h => ?_
    refine checked_bind (checked_gradientStep hrhs hzero hproduct h) fun step _ ⟨hstep, h⟩ => ?_
    exact checked_pure ⟨hstep, h⟩
  · refine checked_bind (checked_measure (sized 0).direction h) fun d _ h => ?_
    split
    · refine checked_bind (checked_quiet rfl rfl rfl h) fun _ _ h => ?_
      refine checked_bind (checked_leave hrhs (sized d) h) fun step _ ⟨hstep, h⟩ => ?_
      exact checked_pure ⟨hstep, h⟩
    · exact checked_pure ⟨sized d, h⟩

theorem checked_turn (sized : it.Sized n) (sized' : next.Sized n) (h : run.Owes n n) :
    Checked n (fun phase run => phase.Sized n ∧ run.Owes n n) (turn s it next run)
      (turn s it next run.bare) := by
  rw [turn_eq, turn_eq]
  -- The old direction is no vector that has just been left: nothing is owed for it.
  refine checked_bind (checked_aypx_last sized'.preconditioned (sized.direction.symm ▸ h))
    fun direction _ ⟨hdirection, h⟩ => ?_
  refine checked_bind (checked_trackTurn sized' hdirection h) fun tracked _ h => ?_
  refine checked_bind (checked_operate hdirection sized.product h) fun product _ h => ?_
  refine checked_bind (checked_dot_last hdirection h) fun curvature _ ⟨hproduct, h⟩ => ?_
  refine checked_bind (checked_quiet rfl rfl rfl h) fun _ _ h => ?_
  split
  · refine checked_bind (checked_quiet rfl rfl rfl h) fun _ _ h => ?_
    exact checked_pure ⟨sized'.step, h⟩
  · split
    · refine checked_bind (checked_quiet rfl rfl rfl h) fun _ _ h => ?_
      exact checked_pure ⟨sized'.step, h⟩
    · exact checked_pure
        ⟨⟨sized'.step, sized'.residual, sized'.preconditioned, hdirection, hproduct⟩, h⟩

end Operator

variable [ConvergenceTest T C]

theorem checked_probe [ActsOn (List T) H] (sized : b.Sized n) (h : run.Owes n n) :
    Checked n (fun p run => (∀ d, (b.iterate p d).Sized n) ∧ run.Owes n n) (probe s b run)
      (probe s b run.bare) := by
  unfold probe
  refine checked_bind (checked_residualNorm h) fun norm _ h => ?_
  refine checked_bind (checked_quiet rfl rfl rfl h) fun verdict _ h => ?_
  refine checked_bind (checked_quiet rfl rfl rfl h) fun _ _ h => ?_
  refine checked_bind (checked_copy sized.preconditioned sized.zero h)
    fun direction _ ⟨hdirection, h⟩ => ?_
  refine checked_bind (checked_operate hdirection sized.zero h) fun product _ h => ?_
  refine checked_bind (checked_quiet rfl rfl rfl h) fun _ _ h => ?_
  refine checked_bind (checked_dot_last hdirection h) fun curvature _ ⟨hproduct, h⟩ => ?_
  exact checked_pure
    ⟨fun d => ⟨sized.zero, sized.residual, sized.preconditioned, hdirection, hproduct⟩, h⟩

theorem checked_review (h : run.Owes n l) :
    Checked n (fun _ run => run.Owes n l) (review s it next run) (review s it next run.bare) := by
  unfold review
  split
  · refine checked_bind (checked_quiet rfl rfl rfl h) fun _ _ h => ?_
    exact checked_pure h
  · refine checked_bind (checked_residualNorm h) fun norm _ h => ?_
    refine checked_bind (checked_quiet rfl rfl rfl h) fun i _ h => ?_
    refine checked_bind (checked_quiet rfl rfl rfl h) fun verdict _ h => ?_
    cases verdict with
    | converged why => exact checked_bind (checked_quiet rfl rfl rfl h) fun _ _ h => checked_pure h
    | diverged why => exact checked_bind (checked_quiet rfl rfl rfl h) fun _ _ h => checked_pure h
    | iterating =>
      refine checked_bind (checked_quiet rfl rfl rfl h) fun i _ h => ?_
      refine checked_bind (checked_quiet rfl rfl rfl h) fun _ _ h => ?_
      split
      · exact checked_bind (checked_quiet rfl rfl rfl h) fun _ _ h => checked_pure h
      · exact checked_pure h

end Phases

section Solve

variable [ActsOn (List T) H] [ActsOn (List T) P] [ConvergenceTest T C]

theorem checked_passes (remaining : Nat) {it : Iterate T (List T)} (sized : it.Sized n)
    {run : Run T (Euclidean T) (Recorded (List T) H) (Recorded (List T) P) C}
    (h : run.Owes n n) :
    Checked n (fun stop run => stop.step.length = n ∧ run.Owes n n) (passes s remaining it run)
      (passes s remaining it run.bare) := by
  have entered : (run.enter it).Owes n n := h
  have hbare : run.bare.enter it = (run.enter it).bare := rfl
  by_cases crosses : it.Crosses s
  · rw [passes_crossing _ crosses, passes_crossing _ crosses, hbare]
    refine checked_bind (checked_truncate sized entered) fun step _ ⟨hstep, h⟩ => ?_
    exact checked_pure ⟨hstep, h⟩
  · rw [passes_inside _ crosses, passes_inside _ crosses, hbare]
    refine checked_bind (checked_advance sized entered) fun next _ ⟨sized', h⟩ => ?_
    refine checked_bind (checked_review h) fun outcome _ h => ?_
    cases outcome with
    | some reason => exact checked_pure ⟨sized'.step, h⟩
    | none =>
      cases remaining with
      | zero =>
        refine checked_bind (checked_quiet rfl rfl rfl h) fun i _ h => ?_
        refine checked_bind (checked_quiet rfl rfl rfl h) fun _ _ h => ?_
        exact checked_pure ⟨sized'.step, h⟩
      | succ remaining =>
        refine checked_bind (checked_turn sized sized' h) fun phase _ ⟨hphase, h⟩ => ?_
        cases phase with
        | stopped reason step => exact checked_pure ⟨hphase, h⟩
        | going it => exact checked_passes remaining hphase h

theorem checked_iterate (hrhs : rhs.length = n) (m : Nat) (h : run.Owes n n) :
    Checked n (fun stop run => stop.step.length = n ∧ run.Owes n n) (iterate s rhs m run)
      (iterate s rhs m run.bare) := by
  unfold iterate
  refine checked_bind (checked_quiet rfl rfl rfl h) fun dimension _ h => ?_
  refine checked_bind (checked_start hrhs h) fun b _ ⟨sized, h⟩ => ?_
  split
  · exact checked_fallBack _ _ hrhs sized h
  · split
    · exact checked_fallBack _ _ hrhs sized h
    · rw [first_eq, first_eq]
      refine checked_bind (checked_bind (checked_probe sized h) fun p _ ⟨sized, h⟩ =>
        checked_depart hrhs sized h) fun phase _ ⟨hphase, h⟩ => ?_
      cases phase with
      | stopped reason step => exact checked_pure ⟨hphase, h⟩
      | going it => exact checked_passes _ hphase h

namespace Solver

/-- In the Euclidean space the operator and the preconditioner are handed vectors of the length of
the right-hand side only. If one of them ever leaves a vector of another length, the solve fails for
that; if the solve succeeds, its step has the length. The record of the applications, by which this
is said, has no part in the result. -/
theorem solve_heeds_lengths (solver : Solver T) (cs : Collaborators (Euclidean T) H P C)
    (rhs : List T) (m : Nat) :
    let applications := (solver.solve (cs.recorded (List T)) rhs m).collaborators.applications
    (solver.solve (cs.recorded (List T)) rhs m).result = (solver.solve cs rhs m).result ∧
    (∀ a ∈ applications, a.argument.length = rhs.length ∧ a.buffer.length = rhs.length) ∧
    ((∃ a ∈ applications, a.written.failure? = none ∧ a.written.content.length ≠ rhs.length) →
      ∃ expected actual,
        (solver.solve cs rhs m).result = .error (.dimensionMismatch expected actual)) ∧
    ∀ solution, (solver.solve cs rhs m).result = .ok solution →
      solution.step.length = rhs.length := by
  have begins : (cs.recorded (List T)).Owes rhs.length rhs.length := by
    constructor
    · exact fun a ha => absurd ha List.not_mem_nil
    · exact fun _ a ha => absurd ha List.not_mem_nil
  cases hv : solver.settings.validate with
  | error failure =>
    unfold solve
    rw [hv]
    exact ⟨rfl, begins.1, fun ⟨a, ha, _⟩ => absurd ha List.not_mem_nil, fun _ h => by cases h⟩
  | ok =>
    have checked : Checked rhs.length _ (iterate solver.settings rhs m (cs.recorded _).begin)
        (iterate solver.settings rhs m cs.begin) := checked_iterate rfl m begins
    obtain ⟨stop, run, hi, hi', hstep, fed, answered⟩ | ⟨failure, run, hi, hi', fed, answered⟩ :=
      checked.cases
    · rw [solve_of_ok hv hi, solve_of_ok hv hi']
      refine ⟨rfl, fed, ?_, ?_⟩
      · rintro ⟨a, ha, hleft, hlength⟩
        exact absurd (answered rfl a ha hleft) hlength
      · rintro solution ⟨⟩
        exact hstep
    · rw [solve_of_error hv hi, solve_of_error hv hi']
      refine ⟨rfl, fed, ?_, fun _ h => by cases h⟩
      rintro ⟨a, ha, hleft, hlength⟩
      obtain hall | ⟨expected, actual, rfl⟩ := answered
      · exact absurd (hall a ha hleft) hlength
      · exact ⟨expected, actual, rfl⟩

/-- An operator whose second application leaves one number where there should be two. -/
def shrinkingOperator : Collaborators (Euclidean Float) (Rule Float) (Rule Float)
    (Criterion Float) :=
  ⟨⟨⟩, .inTurn (.scales [2, 3]) [.set [1]], .scales [1, 1 / 2], .never⟩

theorem solve_heeds_lengths_shrinking :
    let recorded := shrinkingOperator.recorded (List Float)
    (∃ a ∈ (watched.solve recorded [3, 4] 5).collaborators.applications,
      a.written.failure? = none ∧ a.written.content.length ≠ [(3 : Float), 4].length) ∧
    ∃ expected actual, (watched.solve shrinkingOperator [3, 4] 5).result =
      .error (.dimensionMismatch expected actual) := by
  intro recorded
  have shrinks : ∃ a ∈ (watched.solve recorded [3, 4] 5).collaborators.applications,
      a.written.failure? = none ∧ a.written.content.length ≠ [(3 : Float), 4].length := by
    decide +kernel
  exact ⟨shrinks, (solve_heeds_lengths watched shrinkingOperator [3, 4] 5).2.2.1 shrinks⟩

end Solver

end Solve

end TrustRegion
