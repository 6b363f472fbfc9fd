import TrustRegion.Convergence.Criterion
import TrustRegion.Operator.Rule
import TrustRegion.Proofs.Norms

/-! Solves without a radius: the norms that they track decide nothing. -/
namespace TrustRegion

variable {T V S H P C : Type}

section Tests

variable [ConvergenceTest T C]

/-- The answers of a test to questions that are asked one after the other. -/
def answers : C → List (Nat × T) → List Verdict
  | _, [] => []
  | c, (i, x) :: asked =>
    (ConvergenceTest.evaluate c i x).1 :: answers (ConvergenceTest.evaluate c i x).2 asked

/-- Tests that give the same answers to questions about the same iterations, whatever the norms. -/
def AnswersByIteration (c c' : C) : Prop :=
  ∀ asked asked' : List (Nat × T), asked.map (·.1) = asked'.map (·.1) →
    answers c asked = answers c' asked'

theorem overlooks_answersByIteration :
    Overlooks (AnswersByIteration : C → C → Prop) fun _ : T => () := by
  intro c c' same i x x' _
  constructor
  · have answer := same [(i, x)] [(i, x')] rfl
    simpa only [answers, List.cons.injEq, and_true] using answer
  · intro asked asked' hasked
    have later := same ((i, x) :: asked) ((i, x') :: asked') (by simp [hasked])
    simp only [answers, List.cons.injEq] at later
    exact later.2

variable [Scalar T]

theorem answers_fromIteration (first : Nat) (verdict : Verdict) (asked : List (Nat × T)) :
    answers (Criterion.fromIteration first verdict : Criterion T) asked =
      (asked.map (·.1)).map fun i => if i < first then .iterating else verdict := by
  induction asked with
  | nil => rfl
  | cons question asked ih => exact congrArg (_ :: ·) ih

theorem answersByIteration_fromIteration (first : Nat) (verdict : Verdict) :
    AnswersByIteration (Criterion.fromIteration first verdict : Criterion T)
      (.fromIteration first verdict) := by
  intro asked asked' hasked
  rw [answers_fromIteration, answers_fromIteration, hasked]

end Tests

namespace Solver

variable [Scalar T] [VectorSpace T V S] [ActsOn V H] [ActsOn V P] [ConvergenceTest T C]
  {solver : Solver T} {cs : Collaborators S H P C}

/-- Without a radius the norm by which the step is measured makes no difference to anything but the
reported norm of the step, whatever the arithmetic. If the answers of the convergence test do not
depend on the norms that it is asked about, the norm of the residuals makes none to anything but
the reported norms. -/
theorem solve_overlooks_norms (free : solver.settings.isConstrained = false)
    (steady : Steady cs.space) (rhs : V) (m : Nat) :
    (∀ norm, let other := solver.setDirectionNorm norm
      (other.solve cs rhs m).result.map Solution.besideStepNorm =
          (solver.solve cs rhs m).result.map Solution.besideStepNorm ∧
        Event.evaluations (other.solve cs rhs m).events =
          Event.evaluations (solver.solve cs rhs m).events) ∧
    (AnswersByIteration cs.test cs.test →
      ∀ norm kind, let other := (solver.setDirectionNorm norm).setResidualNorm kind
        (other.solve cs rhs m).result.map Solution.besideNorms =
            (solver.solve cs rhs m).result.map Solution.besideNorms ∧
          ((Event.evaluations (other.solve cs rhs m).events).map fun (i, _, verdict) =>
              (i, verdict)) =
            (Event.evaluations (solver.solve cs rhs m).events).map fun (i, _, verdict) =>
              (i, verdict)) := by
  obtain ⟨ops, K, governs, measures, hK⟩ := steady
  have concur : ∀ s' : Settings T, solver.settings.isConstrained = true →
      solver.settings.Concur s' rhs m cs.begin :=
    fun s' constrained => absurd constrained (by simp [free])
  constructor
  · intro norm other
    have variant : solver.settings.Variant (id : T → T) other.settings := ⟨rfl, .inl rfl⟩
    obtain ⟨hresult, hseen⟩ :=
      solve_eq_of_variant governs measures overlooks_eq variant (concur _) hK rfl
    rw [Event.map_seenThrough_id, Event.map_seenThrough_id] at hseen
    exact ⟨besideStepNorm_eq hresult hseen, hseen⟩
  · intro indifferent norm kind other
    have variant : solver.settings.Variant (fun _ : T => ()) other.settings :=
      ⟨rfl, .inr fun _ _ => rfl⟩
    obtain ⟨hresult, hseen⟩ := solve_eq_of_variant governs measures overlooks_answersByIteration
      variant (concur _) hK indifferent
    refine ⟨hresult, ?_⟩
    have hverdicts := congrArg (List.map fun (i, _, verdict) => (i, verdict)) hseen
    rw [List.map_map, List.map_map] at hverdicts
    exact hverdicts

def unbound : Solver Float := { watched with settings.radius := 0 }

/-- Two equations, and a test that stops at the second iteration. -/
def stoppedAtTwo : Collaborators (Euclidean Float) (Rule Float) (Rule Float) (Criterion Float) :=
  ⟨⟨⟩, .scales [2, 3], .scales [1, 1 / 2], .fromIteration 2 (.converged .stepTooSmall)⟩

theorem solve_overlooks_norms_unbound :
    ((unbound.setDirectionNorm .preconditioned).solve stoppedAtTwo [3, 4] 5).result.map
        Solution.besideStepNorm =
      (unbound.solve stoppedAtTwo [3, 4] 5).result.map Solution.besideStepNorm ∧
    (((unbound.setDirectionNorm .preconditioned).setResidualNorm .natural).solve stoppedAtTwo
        [3, 4] 5).result.map Solution.besideNorms =
      (unbound.solve stoppedAtTwo [3, 4] 5).result.map Solution.besideNorms ∧
    (unbound.solve stoppedAtTwo [3, 4] 5).result.toOption.map (·.reason) =
      some (.converged .stepTooSmall) := by
  have free : unbound.settings.isConstrained = false := by decide +kernel
  have steady : Steady stoppedAtTwo.space := Euclidean.steady _
  obtain ⟨direction, both⟩ := solve_overlooks_norms free steady [3, 4] 5
  refine ⟨(direction .preconditioned).1, ?_, by decide +kernel⟩
  exact (both (answersByIteration_fromIteration _ _) .preconditioned .natural).1

end Solver

end TrustRegion
