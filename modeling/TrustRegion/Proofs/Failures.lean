import TrustRegion.Proofs.Observers

/-! How solves fail: for a failed call, which is then the last, or for a right-hand side whose
product with itself is not finite. A failed solve changes what its solver has recorded only. -/
namespace TrustRegion

variable {T V S H P C : Type}

/-- A call of a solve has failed so. -/
def Solved.Breaks (solved : Solved T V S H P C) (failure : Failure) : Prop :=
  ∃ callee, .called callee (some failure) ∈ solved.events

variable [Scalar T] [VectorSpace T V S]

/-- The right-hand side is refused, as its product with itself is not finite. -/
def Collaborators.Refuse (cs : Collaborators S H P C) (rhs : V) (failure : Failure) : Prop :=
  ∃ rr run, firstProduct rhs cs.begin = .ok rr run ∧ Scalar.isFinite rr = false ∧
    failure = .nonFiniteRightHandSide (Scalar.toFloat rr)

namespace Solver

variable [ActsOn V H] [ActsOn V P] [ConvergenceTest T C] {solver : Solver T}
  {cs : Collaborators S H P C} {rhs : V} {m : Nat} {failure : Failure}

theorem breaks_or_refuse (valid : solver.settings.validate = .ok ())
    (h : (solver.solve cs rhs m).result = .error failure) :
    (solver.solve cs rhs m).Breaks failure ∨ cs.Refuse rhs failure := by
  cases hi : iterate solver.settings rhs m cs.begin with
  | ok stop run =>
    rw [solve_of_ok valid hi] at h
    cases h
  | error failure' run =>
    rw [solve_of_error valid hi] at h ⊢
    cases h
    obtain course | ⟨rr, refused⟩ := course_of_error hi
    · obtain ⟨callee, hmem⟩ := course.exists_failed
      exact .inl ⟨callee, List.mem_reverse.mpr hmem⟩
    · exact .inr ⟨rr, run, refused⟩

def brokenOperator : Collaborators (Euclidean Float) (Rule Float) (Rule Float) (Criterion Float) :=
  { twoEquations with operator := .fail (.operatorFailure "no memory") }

end Solver

end TrustRegion
