import TrustRegion.Proofs.Composition
import TrustRegion.Proofs.Passes

/-! The course of the events of a solve: calls, notes and questions follow one another, until the
solve ends or a call fails. Nothing follows a failed call, and the solve fails with its failure. -/
namespace TrustRegion

variable {T V S H P C α β : Type}

namespace Event

variable (events later : List (Event T))

theorem residuals_append : residuals (events ++ later) = residuals events ++ residuals later :=
  List.filterMap_append

theorem evaluations_append :
    evaluations (events ++ later) = evaluations events ++ evaluations later :=
  List.filterMap_append

theorem residuals_reverse : residuals events.reverse = (residuals events).reverse :=
  List.filterMap_reverse

theorem evaluations_reverse : evaluations events.reverse = (evaluations events).reverse :=
  List.filterMap_reverse

end Event

/-- How the events, the latest first, grow from `before` on, with the failure that ends them. A
residual norm is announced only where the convergence test is asked about it at once. -/
inductive Course (before : List (Event T)) : Option Failure → List (Event T) → Prop where
  | refl : Course before none before
  | call {events : List (Event T)} (h : Course before none events) (callee : Callee) :
      Course before none (.called callee none :: events)
  | note {events : List (Event T)} (h : Course before none events) (n : Note T) :
      Course before none (.noted n :: events)
  | ask {events : List (Event T)} (h : Course before none events) (iteration : Nat) (norm : T)
      (verdict : Verdict) (remark? : Option (Remark T)) :
      Course before none
        (.evaluated iteration norm verdict remark? :: .residual iteration norm :: events)
  | fail {events : List (Event T)} (h : Course before none events) (callee : Callee)
      (failure : Failure) : Course before (some failure) (.called callee (some failure) :: events)

namespace Course

variable {before events later : List (Event T)} {failure? : Option Failure} {callee : Callee}
  {failure failure' : Failure}

theorem trans (h : Course before none events) (h' : Course events failure? later) :
    Course before failure? later := by
  induction h' with
  | refl => exact h
  | call _ callee ih => exact ih.call callee
  | note _ n ih => exact ih.note n
  | ask _ i x verdict remark? ih => exact ih.ask i x verdict remark?
  | fail _ callee failure ih => exact ih.fail callee failure

theorem exists_failed (h : Course before (some failure) events) :
    ∃ callee, .called callee (some failure) ∈ events := by
  cases h with
  | fail h callee => exact ⟨callee, List.mem_cons_self⟩

theorem residuals_eq (h : Course [] failure? events) :
    Event.residuals events = (Event.evaluations events).map fun (i, x, _) => (i, x) := by
  induction h with
  | refl => rfl
  | call _ _ ih => exact ih
  | note _ _ ih => exact ih
  | ask _ i x _ _ ih => exact congrArg ((i, x) :: ·) ih
  | fail _ _ _ ih => exact ih

end Course

/-- An outcome whose events continue those of the run in such a course. -/
def Run.Leads (run : Run T S H P C) : EStateM.Result Failure (Run T S H P C) α → Prop
  | .ok _ run' => Course run.latest none run'.latest
  | .error failure run' => Course run.latest (some failure) run'.latest

namespace Run

variable {run run' : Run T S H P C}

theorem leads_ofWritten (callee : Callee) (written : Written V) (h : run'.latest = run.latest) :
    run.Leads (run'.ofWritten callee written) := by
  unfold ofWritten
  split
  · next hs =>
    rw [Leads, log_latest, h, hs]
    exact .call .refl callee
  · next failure hs =>
    rw [Leads, log_latest, h, hs]
    exact .fail .refl callee failure

theorem leads_ofAnswer (callee : Callee) (answer : Except Failure T)
    (h : run'.latest = run.latest) : run.Leads (run'.ofAnswer callee answer) := by
  cases answer with
  | ok number =>
    rw [ofAnswer, Leads, log_latest, h]
    exact .call .refl callee
  | error failure =>
    rw [ofAnswer, Leads, log_latest, h]
    exact .fail .refl callee failure

end Run

namespace RunM

theorem leads_bind {m : RunM T S H P C α} {k : α → RunM T S H P C β} {run : Run T S H P C}
    (hm : run.Leads (m run)) (hk : ∀ a mid, m run = .ok a mid → mid.Leads (k a mid)) :
    run.Leads ((m >>= k) run) := by
  cases h : m run with
  | error failure mid =>
    rw [h] at hm
    simp only [bind, EStateM.bind, h]
    exact hm
  | ok a mid =>
    rw [h] at hm
    rw [bind_of_ok h]
    have hrest := hk a mid h
    cases hb : k a mid with
    | ok b run' =>
      rw [hb] at hrest
      exact hm.trans hrest
    | error failure run' =>
      rw [hb] at hrest
      exact hm.trans hrest

variable [VectorSpace T V S] [ActsOn V H] [ActsOn V P] {m : RunM T S H P C α}

theorem Silent.leads (h : m.Silent) (run : Run T S H P C) : run.Leads (m run) := by
  induction h generalizing run with
  | bind _ _ hm hk => exact leads_bind (hm run) fun a mid _ => hk a mid
  | copy | axpy | aypx | operate | precondition => exact Run.leads_ofWritten _ _ rfl
  | dot | norm => exact Run.leads_ofAnswer _ _ rfl
  | note n => exact .note .refl n
  | _ => exact .refl

/-- The phases take such a course, whatever they start from. -/
theorem Composed.leads [ConvergenceTest T C] (h : m.Composed) (run : Run T S H P C) :
    run.Leads (m run) := by
  induction h generalizing run with
  | silent h => exact h.leads run
  | bind _ _ hm hk => exact leads_bind (hm run) fun a mid _ => hk a mid
  | judge i x => exact .ask .refl _ _ _ _

end RunM

open RunM

section Solve

variable [Scalar T] [VectorSpace T V S] [ActsOn V P] {s : Settings T} {rhs : V} {m : Nat}
  {rr : T} {run run' : Run T S H P C}

/-- The product of the right-hand side with itself, the first that a solve takes. -/
def firstProduct (rhs : V) : RunM T S H P C T := do
  let zero ← zerosLike rhs
  let residual ← copy rhs zero
  dot residual residual

omit [Scalar T] [ActsOn V P] in
theorem firstProduct_latest (h : firstProduct rhs run = .ok rr run') :
    run'.latest = .called (.space .dot) none :: .called (.space .copy) none :: run.latest := by
  simp only [firstProduct, bind_eq_ok] at h
  obtain ⟨zero, run₁, ⟨⟩, residual, run₂, hcopy, hdot⟩ := h
  simp only [copy] at hcopy
  simp only [dot] at hdot
  rw [Run.eq_of_ofAnswer hdot, Run.eq_of_ofWritten hcopy]
  rfl

theorem start_of_infinite (h : firstProduct rhs run = .ok rr run')
    (infinite : Scalar.isFinite rr = false) :
    (start rhs : RunM T S H P C (Start T V)) run =
      .error (.nonFiniteRightHandSide (Scalar.toFloat rr)) run' := by
  simp only [firstProduct, bind_eq_ok] at h
  obtain ⟨zero, run₁, hzero, residual, run₂, hcopy, hdot⟩ := h
  rw [start, bind_of_ok hzero, bind_of_ok hcopy, bind_of_ok hdot, if_neg (by simp [infinite])]
  rfl

variable [ActsOn V H]

theorem leads_start
    (finite : ∀ rr run', firstProduct rhs run = .ok rr run' → Scalar.isFinite rr = true) :
    run.Leads ((start rhs : RunM T S H P C (Start T V)) run) := by
  refine leads_bind ((Silent.zerosLike rhs).leads run) fun zero run₁ hzero =>
    leads_bind ((Silent.copy rhs zero).leads run₁) fun residual run₂ hcopy =>
    leads_bind ((Silent.dot residual residual).leads run₂) fun rr run₃ hdot => ?_
  have hrr : firstProduct rhs run = .ok rr run₃ :=
    (bind_of_ok hzero).trans ((bind_of_ok hcopy).trans hdot)
  rw [if_pos (finite rr run₃ hrr)]
  exact Silent.leads (.bind (.precondition _ _) fun _ => .bind (.dot _ _) fun _ => .pure _) run₃

variable [ConvergenceTest T C]

theorem iterate_of_infinite (h : firstProduct rhs run = .ok rr run')
    (infinite : Scalar.isFinite rr = false) :
    iterate s rhs m run = .error (.nonFiniteRightHandSide (Scalar.toFloat rr)) run' := by
  rw [iterate, bind_of_ok (dimension_apply _ _)]
  simp only [bind, EStateM.bind, start_of_infinite h infinite]

theorem leads_iterate
    (finite : ∀ rr run', firstProduct rhs run = .ok rr run' → Scalar.isFinite rr = true) :
    run.Leads (iterate s rhs m run) := by
  rw [iterate, bind_of_ok (dimension_apply _ _)]
  refine leads_bind (leads_start finite) fun b run₁ _ => ?_
  split
  · exact (silent_fallBack s rhs b _ _).leads run₁
  · split
    · exact (silent_fallBack s rhs b _ _).leads run₁
    · refine Composed.leads (.bind composed_first fun phase => ?_) run₁
      cases phase with
      | stopped reason step => exact .silent (.pure _)
      | going it => exact composed_passes _ it

end Solve

section Solve

variable [Scalar T] [VectorSpace T V S] [ActsOn V H] [ActsOn V P] [ConvergenceTest T C]
  {s : Settings T} {cs : Collaborators S H P C} {rhs : V} {m : Nat} {run : Run T S H P C}

theorem course_of_ok {stop : Stop V} (h : iterate s rhs m cs.begin = .ok stop run) :
    Course [] none run.latest := by
  have finite : ∀ rr run', firstProduct rhs cs.begin = .ok rr run' →
      Scalar.isFinite rr = true := by
    intro rr run' hrr
    cases infinite : Scalar.isFinite rr with
    | true => rfl
    | false =>
      rw [iterate_of_infinite hrr infinite] at h
      cases h
  have leads := leads_iterate (s := s) (m := m) finite
  rw [h] at leads
  exact leads

theorem course_of_error {failure : Failure} (h : iterate s rhs m cs.begin = .error failure run) :
    Course [] (some failure) run.latest ∨
      ∃ rr, firstProduct rhs cs.begin = .ok rr run ∧ Scalar.isFinite rr = false ∧
        failure = .nonFiniteRightHandSide (Scalar.toFloat rr) := by
  -- The first product is the only place where a solve gives up without a failed call.
  by_cases infinite : ∃ rr run', firstProduct rhs cs.begin = .ok rr run' ∧
      Scalar.isFinite rr = false
  · obtain ⟨rr, run', hrr, infinite⟩ := infinite
    rw [iterate_of_infinite hrr infinite] at h
    cases h
    exact .inr ⟨rr, hrr, infinite, rfl⟩
  · have finite : ∀ rr run', firstProduct rhs cs.begin = .ok rr run' →
        Scalar.isFinite rr = true := by
      intro rr run' hrr
      exact eq_true_of_ne_false fun hinf => infinite ⟨rr, run', hrr, hinf⟩
    have leads := leads_iterate (s := s) (m := m) finite
    rw [h] at leads
    exact .inl leads

end Solve

/-- The last event of a solve, which only one that succeeds has. -/
def Solved.closing (solved : Solved T V S H P C) : List (Event T) :=
  match solved.result with
  | .ok solution => [.terminated solution.reason solution.iterations]
  | .error _ => []

namespace Solver

variable [Scalar T] [VectorSpace T V S] [ActsOn V H] [ActsOn V P] [ConvergenceTest T C]
  {solver : Solver T} {cs : Collaborators S H P C} {rhs : V} {m : Nat}

theorem solve_of_error {failure : Failure} {run : Run T S H P C}
    (valid : solver.settings.validate = .ok ())
    (h : iterate solver.settings rhs m cs.begin = .error failure run) :
    solver.solve cs rhs m =
      { result := .error failure
        solver := solver.observe run.figures run.latest.reverse none
        collaborators := run.toCollaborators
        events := run.latest.reverse } := by
  have h : iterate solver.settings rhs m { cs with figures := .zero, latest := [] } =
      .error failure run := h
  simp only [solve, valid, h]

theorem solve_of_ok {stop : Stop V} {run : Run T S H P C}
    (valid : solver.settings.validate = .ok ())
    (h : iterate solver.settings rhs m cs.begin = .ok stop run) :
    solver.solve cs rhs m =
      let events := (Event.terminated stop.reason run.figures.iterations :: run.latest).reverse
      let after := solver.observe run.figures events (some stop.reason)
      { result := .ok
          { step := stop.step
            reason := stop.reason
            iterations := run.figures.iterations
            residualNorm? := after.report.residualNorm?
            stepNorm := run.figures.stepNorm
            objective := run.figures.objective
            converged := stop.reason.isSuccess }
        solver := after
        collaborators := run.toCollaborators
        events } := by
  have h : iterate solver.settings rhs m { cs with figures := .zero, latest := [] } =
      .ok stop run := h
  simp only [solve, valid, h]
  rfl

theorem solve_of_ends {k : Nat} {stop : Stop V} {run : Run T S H P C}
    (valid : solver.settings.validate = .ok ())
    (ends : Ends solver.settings rhs m cs.begin k stop run) : ∃ solution,
      (solver.solve cs rhs m).result = .ok solution ∧ solution.step = stop.step ∧
        solution.reason = stop.reason := by
  rw [solve_of_ok valid ends.iterate_eq]
  exact ⟨_, rfl, rfl, rfl⟩

variable (cs rhs m) in
/-- Before its end a solve takes such a course, whether it succeeds or not. -/
theorem exists_course (valid : solver.settings.validate = .ok ()) :
    ∃ failure? latest, Course [] failure? latest ∧
      (solver.solve cs rhs m).events = latest.reverse ++ (solver.solve cs rhs m).closing := by
  cases h : iterate solver.settings rhs m cs.begin with
  | ok stop run =>
    refine ⟨none, run.latest, course_of_ok h, ?_⟩
    rw [solve_of_ok valid h]
    exact List.reverse_cons
  | error failure run =>
    rw [solve_of_error valid h]
    obtain course | ⟨rr, hrr, -⟩ := course_of_error h
    · exact ⟨some failure, run.latest, course, (List.append_nil _).symm⟩
    · refine ⟨none, run.latest, ?_, (List.append_nil _).symm⟩
      rw [firstProduct_latest hrr]
      exact .call (.call .refl _) _

end Solver

end TrustRegion
