import TrustRegion.Proofs.Comparison
import TrustRegion.Proofs.Departure
import TrustRegion.Proofs.Ledger

/-! A wider radius: a solve goes the same way as long as it is not cut off at the narrower one. -/
namespace TrustRegion

variable {T V S H P C : Type} [Scalar T]

open RunM

/-- Settings whose radius is never reached before that of others which agree with them in the
norms. -/
structure Settings.Wider (s s' : Settings T) : Prop where
  directionNorm : s'.directionNorm = s.directionNorm
  residualNorm : s'.residualNorm = s.residualNorm
  reaches (x : T) (h : s'.isConstrained = true ∧ x ≥ s'.radiusSq) :
    s.isConstrained = true ∧ x ≥ s.radiusSq

section Phases

variable [VectorSpace T V S] {s s' : Settings T} {rhs : V} (wider : s.Wider s')

include wider

theorem residualNorm_widen (r z : V) (rz : T) (known? : Option T) :
    (residualNorm s' r z rz known? : RunM T S H P C T) = residualNorm s r z rz known? := by
  unfold residualNorm
  rw [wider.residualNorm]

theorem measure_widen (b : Start T V) (direction : V) :
    (measure s' b direction : RunM T S H P C T) = measure s b direction := by
  unfold measure
  rw [wider.directionNorm]

theorem advance_widen [ActsOn V P] (it : Iterate T V) :
    (advance s' it : RunM T S H P C (Iterate T V)) = advance s it := by
  unfold advance
  rw [wider.directionNorm]

theorem turn_widen [ActsOn V H] (it next : Iterate T V) :
    (turn s' it next : RunM T S H P C (Phase V (Iterate T V))) = turn s it next := by
  unfold turn
  rw [wider.directionNorm]

variable [ConvergenceTest T C]

theorem review_widen (it next : Iterate T V) :
    (review s' it next : RunM T S H P C (Option Reason)) = review s it next := by
  unfold review
  simp only [residualNorm_widen wider]

variable [ActsOn V H]

theorem probe_widen (b : Start T V) :
    (probe s' b : RunM T S H P C (Probe T V)) = probe s b := by
  unfold probe
  simp only [residualNorm_widen wider]

omit [ConvergenceTest T C] in
theorem depart_going_widen {b : Start T V} {p : Probe T V} {it : Iterate T V}
    {run run' : Run T S H P C} (goes : depart s rhs b p run = .ok (.going it) run') :
    depart s' rhs b p run = .ok (.going it) run' := by
  unfold depart at goes ⊢
  split at goes
  · obtain ⟨_, _, ⟨⟩, goes⟩ := bind_eq_ok.mp goes
    obtain ⟨_, _, -, ⟨⟩⟩ := bind_eq_ok.mp goes
  · next finite =>
    rw [if_neg finite, measure_widen wider]
    obtain ⟨directionSq, mid, hmeasure, goes⟩ := bind_eq_ok.mp goes
    rw [bind_of_ok hmeasure]
    split at goes
    · obtain ⟨_, _, ⟨⟩, goes⟩ := bind_eq_ok.mp goes
      obtain ⟨_, _, -, ⟨⟩⟩ := bind_eq_ok.mp goes
    · next curved =>
      rw [if_neg curved]
      exact goes

theorem first_going_widen {b : Start T V} {it : Iterate T V} {run run' : Run T S H P C}
    (goes : first s rhs b run = .ok (.going it) run') :
    first s' rhs b run = .ok (.going it) run' := by
  rw [first_eq] at goes ⊢
  obtain ⟨p, mid, hprobe, goes⟩ := bind_eq_ok.mp goes
  rw [probe_widen wider, bind_of_ok hprobe]
  exact depart_going_widen wider goes

end Phases

section Solve

variable [VectorSpace T V S] [ActsOn V H] [ActsOn V P] [ConvergenceTest T C] {s s' : Settings T}
  {rhs : V} {m k : Nat} {run₀ run run' : Run T S H P C} {it next : Iterate T V} {stop : Stop V}

omit [ActsOn V H] [ConvergenceTest T C] in
theorem FullStep.widen (full : FullStep s it run next run') (wider : s.Wider s') :
    FullStep s' it run next run' where
  inside crosses := full.inside (wider.reaches _ crosses)
  advances := by
    rw [advance_widen wider]
    exact full.advances

/-- A wider radius cuts off no pass that the narrower one lets by. -/
theorem ReachesPass.widen (pass : ReachesPass s rhs m run₀ k it run) (wider : s.Wider s') :
    ReachesPass s' rhs m run₀ k it run := by
  induction pass with
  | first starts finite nonneg goes =>
    exact .first starts finite nonneg (first_going_widen wider goes)
  | next _ full reviews below turns ih =>
    rw [← review_widen wider] at reviews
    rw [← turn_widen wider] at turns
    exact .next ih (full.widen wider) reviews below turns

variable (s rhs m run₀) in
/-- A solve that begins as `run₀` and is cut off at the boundary after `k` full steps. -/
inductive CutOff : Nat → Stop V → Run T S H P C → Prop where
  | boundary {k : Nat} {it : Iterate T V} {step : V} {run run' : Run T S H P C}
      (pass : ReachesPass s rhs m run₀ k it run) (crosses : it.Crosses s)
      (truncates : truncate s it (run.enter it) = .ok step run') :
      CutOff k ⟨.constrainedStep, step⟩ run'

/-- A solve that has taken a full step and is not cut off ends as with any wider radius. -/
theorem Ends.widen (ends : Ends s rhs m run₀ k stop run) (wider : s.Wider s') (taken : 1 ≤ k)
    (uncut : ¬ CutOff s rhs m run₀ k stop run) : Ends s' rhs m run₀ k stop run := by
  cases ends with
  | badPreconditioner | indefinitePreconditioner | first => omega
  | boundary pass crosses truncates => exact absurd (.boundary pass crosses truncates) uncut
  | review pass full stops =>
    rw [← review_widen wider] at stops
    exact .review (pass.widen wider) (full.widen wider) stops
  | limit pass full reviews reached =>
    rw [← review_widen wider] at reviews
    exact .limit (pass.widen wider) (full.widen wider) reviews reached
  | turn pass full reviews below stops =>
    rw [← review_widen wider] at reviews
    rw [← turn_widen wider] at stops
    exact .turn (pass.widen wider) (full.widen wider) reviews below stops

open Run

/-- Cut off or not, a solve has asked the convergence test nothing that it would not have asked
with a wider radius. -/
theorem behind_passes (wider : s.Wider s') (left : Nat) (it : Iterate T V) (run : Run T S H P C) :
    Behind (passes s left it run) (passes s' left it run) := by
  by_cases crosses : it.Crosses s
  · rw [passes.eq_def s left it]
    refine Silent.behind (.bind .iterations fun _ => .bind (.note _) fun _ => ?_)
      (composed_passes left it) run
    rw [if_pos (by simpa [Iterate.Crosses] using crosses)]
    exact .bind aloof_truncate.silent fun _ => .pure _
  · rw [passes.eq_def s left it, passes.eq_def s' left it]
    refine behind_bind fun _ _ _ => behind_bind fun _ mid _ => ?_
    have inside : ¬ it.Crosses s' := fun h => crosses (wider.reaches _ h)
    rw [if_neg (by simpa [Iterate.Crosses] using crosses),
      if_neg (by simpa [Iterate.Crosses] using inside), advance_widen wider]
    refine behind_bind fun next _ _ => ?_
    rw [review_widen wider]
    refine behind_bind fun outcome _ _ => ?_
    cases outcome with
    | some reason => exact List.suffix_refl _
    | none =>
      cases left with
      | zero => exact List.suffix_refl _
      | succ left =>
        simp only [turn_widen wider]
        refine behind_bind fun phase mid _ => ?_
        cases phase with
        | stopped reason step => exact List.suffix_refl _
        | going it => exact behind_passes wider left it mid

theorem behind_first (wider : s.Wider s') (b : Start T V) {γ : Type}
    {rest : Phase V (Iterate T V) → RunM T S H P C γ} (composed : ∀ phase, (rest phase).Composed)
    (run : Run T S H P C) : Behind (first s rhs b run) ((first s' rhs b >>= rest) run) := by
  rw [first_eq, first_eq, probe_widen wider, bind_assoc]
  exact behind_bind fun p mid _ =>
    silent_depart.behind (.bind (.silent silent_depart) composed) mid

def afterFirst (s : Settings T) (passesLeft : Nat) :
    Phase V (Iterate T V) → RunM T S H P C (Stop V)
  | .stopped reason step => pure ⟨reason, step⟩
  | .going it => passes s passesLeft it

theorem behind_iterate (wider : s.Wider s') (m : Nat) (run : Run T S H P C) :
    Behind (iterate s rhs m run) (iterate s' rhs m run) := by
  refine behind_bind fun n _ _ => behind_bind fun b mid _ => ?_
  by_cases infinite : (!Scalar.isFinite b.rz) = true
  · rw [if_pos infinite, if_pos infinite]
    exact (silent_fallBack s rhs b _ _).behind (.silent (silent_fallBack s' rhs b _ _)) mid
  · rw [if_neg infinite, if_neg infinite]
    by_cases neg : b.rz < 0
    · rw [if_pos neg, if_pos neg]
      exact (silent_fallBack s rhs b _ _).behind (.silent (silent_fallBack s' rhs b _ _)) mid
    · rw [if_neg neg, if_neg neg]
      let rest (s : Settings T) : Phase V (Iterate T V) → RunM T S H P C (Stop V) :=
        afterFirst s (min m n - 1)
      show Behind ((first s rhs b >>= rest s) mid) ((first s' rhs b >>= rest s') mid)
      have composed (phase : Phase V (Iterate T V)) :
          (rest s' phase : RunM T S H P C (Stop V)).Composed := by
        cases phase with
        | stopped reason step => exact .silent (.pure _)
        | going it => exact composed_passes _ it
      have behind : Behind (first s rhs b mid) ((first s' rhs b >>= rest s') mid) :=
        behind_first wider b composed mid
      rcases reached_bind (first s rhs b) (rest s) mid with ⟨phase, mid', hfirst, hrest⟩ | hfail
      · cases phase with
        | stopped reason step =>
          rw [hfirst] at behind
          rw [hrest]
          exact behind
        | going it =>
          rw [hrest, bind_of_ok (first_going_widen wider hfirst)]
          exact behind_passes wider _ it mid'
      · unfold Behind at behind ⊢
        rw [hfail]
        exact behind

theorem Ends.preconditioner_eq (ends : Ends s rhs m run₀ k stop run) (h₀ : run₀.ledger = .empty) :
    run.ledger.preconditioner = k + 1 := by
  have noted (run : Run T S H P C) (n : Note T) : (run.log (.noted n)).ledger = run.ledger :=
    run.ledger_log _
  have fallen (l : Ledger) : (l.fallBack s).preconditioner = l.preconditioner := by
    unfold Ledger.fallBack
    split <;> rfl
  cases ends with
  | badPreconditioner starts infinite falls =>
    rw [posts_gradientStep ((noted _ _).trans (posts_start h₀ starts)) falls, fallen]
    rfl
  | indefinitePreconditioner starts finite neg falls =>
    rw [posts_gradientStep ((noted _ _).trans (posts_start h₀ starts)) falls, fallen]
    rfl
  | @first _ reason _ _ _ starts _ _ stops =>
    have books := books_first (posts_start h₀ starts) stops
    cases reason with
    | badOperator => exact (congrArg Ledger.preconditioner books).trans (fallen _)
    | negativeCurvature =>
      rcases books with books | ⟨-, books⟩
      · exact congrArg Ledger.preconditioner books
      · exact (congrArg Ledger.preconditioner books).trans (fallen _)
    | _ => exact books.elim
  | boundary pass _ truncates =>
    rw [posts_truncate ((Run.ledger_enter _).trans (pass.ledger_eq h₀)) truncates]
    rfl
  | @review _ _ _ reason _ _ _ pass full stops =>
    have books := books_review (full.ledger_eq (pass.ledger_eq h₀)) stops
    cases reason with
    | indefinitePreconditioner | converged | diverged | breakdown =>
      exact congrArg Ledger.preconditioner books
    | _ => exact books.elim
  | limit pass full reviews reached =>
    rw [noted, books_review (full.ledger_eq (pass.ledger_eq h₀)) reviews]
    rfl
  | @turn _ _ _ reason _ _ _ _ _ pass full reviews below stops =>
    have books := books_turn (books_review (full.ledger_eq (pass.ledger_eq h₀)) reviews) stops
    cases reason with
    | badOperator | negativeCurvature => exact congrArg Ledger.preconditioner books
    | _ => exact books.elim

end Solve

namespace Solver

theorem eq_of_setRadius {solver solver' : Solver T} {radius : T}
    (h : solver.setRadius radius = .ok solver') :
    solver' = { solver with settings.radius := radius } := by
  cases hr : Settings.checkRadius radius with
  | error failure => simp [Solver.setRadius, hr, Except.map] at h
  | ok u =>
    simp only [Solver.setRadius, hr, Except.map] at h
    cases h
    rfl

theorem wider_of_setRadius_zero {solver free : Solver T} (hfree : solver.setRadius 0 = .ok free) :
    solver.settings.Wider free.settings := by
  have valid := valid_of_setRadius hfree
  obtain rfl := eq_of_setRadius hfree
  have unconstrained : ¬ (0 : T) > 0 := by
    intro pos
    have neg : (0 : T) < 0 := pos
    simp [Settings.validate, Settings.checkRadius, neg] at valid
  exact ⟨rfl, rfl, fun x h => absurd (of_decide_eq_true h.1) unconstrained⟩

variable [VectorSpace T V S] [ActsOn V H] [ActsOn V P] [ConvergenceTest T C]

/-- A radius that does not bind is as good as none, in every arithmetic. What a solve asks the
convergence test is what it would ask first without a radius. If it has gone on to precondition a
second residual and is not cut off, it does the same without a radius, to the last event. -/
theorem solve_unbound {solver free : Solver T} {cs : Collaborators S H P C} {rhs : V} {m : Nat}
    {solution : Solution T V} (hfree : solver.setRadius 0 = .ok free)
    (h : (solver.solve cs rhs m).result = .ok solution) :
    Event.evaluations (solver.solve cs rhs m).events <+:
        Event.evaluations (free.solve cs rhs m).events ∧
      (2 ≤ Event.callCount .preconditioner (solver.solve cs rhs m).events →
        solution.reason ≠ .constrainedStep →
          (free.solve cs rhs m).result = .ok solution ∧
            (free.solve cs rhs m).events = (solver.solve cs rhs m).events) := by
  have wider := wider_of_setRadius_zero hfree
  have valid := valid_of_setRadius hfree
  obtain ⟨hv, k, stop, run, ends, -, hreason, -, -, -, hevents, -⟩ := solve_eq_ok h
  constructor
  · exact evaluations_prefix hv valid (behind_iterate wider m cs.begin)
  · intro applied uncut
    have count : Event.callCount .preconditioner (solver.solve cs rhs m).events = k + 1 := by
      rw [hevents, List.reverse_cons, Event.callCount_append]
      exact ends.preconditioner_eq rfl
    have uncut : ¬ CutOff solver.settings rhs m cs.begin k stop run := by
      rintro ⟨⟩
      exact uncut hreason
    have same := ends.widen wider (by omega) uncut
    rw [solve_of_ok hv ends.iterate_eq] at h ⊢
    rw [solve_of_ok valid same.iterate_eq, eq_of_setRadius hfree]
    exact ⟨h, rfl⟩

/-- A solver whose radius the solution of the two equations does not reach. -/
def held : Solver Float := { watched with settings.radius := 10 }

theorem solve_unbound_held : ∃ (free : Solver Float) (solution : Solution Float (List Float)),
    held.setRadius 0 = .ok free ∧ (held.solve twoEquations [3, 4] 5).result = .ok solution ∧
      (free.solve twoEquations [3, 4] 5).result = .ok solution ∧
      (free.solve twoEquations [3, 4] 5).events = (held.solve twoEquations [3, 4] 5).events := by
  have hfree : held.setRadius 0 = .ok { held with settings.radius := 0 } := rfl
  have limited : (held.solve twoEquations [3, 4] 5).result.toOption.map (·.reason) =
      some .iterationLimit := by decide +kernel
  have applied : 2 ≤ Event.callCount .preconditioner
      (held.solve twoEquations [3, 4] 5).events := by decide +kernel
  cases h : (held.solve twoEquations [3, 4] 5).result with
  | error failure =>
    rw [h] at limited
    cases limited
  | ok solution =>
    rw [h] at limited
    have hreason : solution.reason = .iterationLimit := Option.some.inj limited
    have uncut : solution.reason ≠ .constrainedStep := by
      rw [hreason]
      exact Reason.noConfusion
    exact ⟨_, solution, hfree, rfl, (solve_unbound hfree h).2 applied uncut⟩

end Solver

end TrustRegion
