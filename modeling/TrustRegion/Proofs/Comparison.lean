import TrustRegion.Proofs.Composition
import TrustRegion.Proofs.Course

/-! Solves that go the same way until one of them stops: what that one has asked the convergence
test, the other asks first. -/
namespace TrustRegion

variable {T V S H P C α β : Type}

namespace Run

def reached : EStateM.Result Failure (Run T S H P C) α → Run T S H P C
  | .ok _ run => run
  | .error _ run => run

/-- The questions to the convergence test and its answers, the latest first. -/
def verdicts (run : Run T S H P C) : List (Nat × T × Verdict) := Event.evaluations run.latest

/-- An outcome whose questions another one has asked as well, before all its others. -/
def Behind (x : EStateM.Result Failure (Run T S H P C) α)
    (y : EStateM.Result Failure (Run T S H P C) β) : Prop :=
  (reached x).verdicts <:+ (reached y).verdicts

/-- An outcome that is another one, or that has stopped for the reason on the way to it. -/
def CutShort (reason : Reason) (x y : EStateM.Result Failure (Run T S H P C) (Stop V)) : Prop :=
  x = y ∨ (∃ step run, x = .ok ⟨reason, step⟩ run) ∧ Behind x y

variable {reason : Reason} {x y : EStateM.Result Failure (Run T S H P C) (Stop V)}

theorem CutShort.behind (h : CutShort reason x y) : Behind x y := by
  rcases h with rfl | ⟨-, h⟩
  · exact List.suffix_refl _
  · exact h

theorem verdicts_ofWritten (callee : Callee) (written : Written V) (run : Run T S H P C) :
    (reached (run.ofWritten callee written)).verdicts = run.verdicts := by
  unfold ofWritten
  split <;> rfl

theorem verdicts_ofAnswer (callee : Callee) (answer : Except Failure T) (run : Run T S H P C) :
    (reached (run.ofAnswer callee answer)).verdicts = run.verdicts := by
  cases answer <;> rfl

end Run

namespace RunM

open Run

variable {m : RunM T S H P C α} {k : α → RunM T S H P C β} {run : Run T S H P C}

theorem reached_bind (m : RunM T S H P C α) (k : α → RunM T S H P C β) (run : Run T S H P C) :
    (∃ a mid, m run = .ok a mid ∧ (m >>= k) run = k a mid) ∨
      reached ((m >>= k) run) = reached (m run) := by
  cases h : m run with
  | ok a mid => exact .inl ⟨a, mid, rfl, bind_of_ok h⟩
  | error failure mid =>
    right
    simp only [bind, EStateM.bind, h]
    rfl

theorem behind_bind {γ : Type} {k' : α → RunM T S H P C γ}
    (h : ∀ a mid, m run = .ok a mid → Behind (k a mid) (k' a mid)) :
    Behind ((m >>= k) run) ((m >>= k') run) := by
  cases hm : m run with
  | ok a mid =>
    rw [bind_of_ok hm, bind_of_ok hm]
    exact h a mid hm
  | error failure mid =>
    simp only [bind, EStateM.bind, hm]
    exact List.suffix_refl _

theorem cutShort_bind {reason : Reason} {k k' : α → RunM T S H P C (Stop V)}
    (h : ∀ a mid, m run = .ok a mid → CutShort reason (k a mid) (k' a mid)) :
    CutShort reason ((m >>= k) run) ((m >>= k') run) := by
  cases hm : m run with
  | ok a mid =>
    rw [bind_of_ok hm, bind_of_ok hm]
    exact h a mid hm
  | error failure mid =>
    left
    simp only [bind, EStateM.bind, hm]

variable [VectorSpace T V S] [ActsOn V H] [ActsOn V P]

theorem Silent.verdicts_eq (h : m.Silent) (run : Run T S H P C) :
    (reached (m run)).verdicts = run.verdicts := by
  induction h generalizing run with
  | @bind _ _ m k _ _ ihm ihk =>
    rcases reached_bind m k run with ⟨a, mid, hm, hk⟩ | hfail
    · have hmid : mid.verdicts = run.verdicts := by
        rw [← ihm run, hm]
        rfl
      rw [hk, ihk a mid, hmid]
    · rw [hfail, ihm run]
  | copy | axpy | aypx | operate | precondition =>
    exact Run.verdicts_ofWritten _ _ _
  | dot | norm => exact Run.verdicts_ofAnswer _ _ _
  | _ => rfl

variable [ConvergenceTest T C]

theorem Composed.verdicts_suffix (h : m.Composed) (run : Run T S H P C) :
    run.verdicts <:+ (reached (m run)).verdicts := by
  induction h generalizing run with
  | silent h => simp only [h.verdicts_eq, List.suffix_refl]
  | @bind _ _ m k _ _ ihm ihk =>
    rcases reached_bind m k run with ⟨a, mid, hm, hk⟩ | hfail
    · have hmid : run.verdicts <:+ mid.verdicts := by
        have := ihm run
        rwa [hm] at this
      rw [hk]
      exact hmid.trans (ihk a mid)
    · rw [hfail]
      exact ihm run
  | judge i x => exact List.suffix_cons _ _

theorem Silent.behind {m' : RunM T S H P C β} (h : m.Silent) (h' : m'.Composed)
    (run : Run T S H P C) : Behind (m run) (m' run) := by
  unfold Behind
  rw [h.verdicts_eq]
  exact h'.verdicts_suffix run

end RunM

namespace Solver

variable [Scalar T] [VectorSpace T V S] [ActsOn V H] [ActsOn V P] [ConvergenceTest T C]

theorem evaluations_solve {solver : Solver T} (valid : solver.settings.validate = .ok ())
    (cs : Collaborators S H P C) (rhs : V) (m : Nat) :
    Event.evaluations (solver.solve cs rhs m).events =
      (Run.reached (iterate solver.settings rhs m cs.begin)).verdicts.reverse := by
  cases h : iterate solver.settings rhs m cs.begin with
  | ok stop run =>
    rw [solve_of_ok valid h]
    exact Event.evaluations_reverse _
  | error failure run =>
    rw [solve_of_error valid h]
    exact Event.evaluations_reverse _

theorem evaluations_prefix {solver solver' : Solver T} (valid : solver.settings.validate = .ok ())
    (valid' : solver'.settings.validate = .ok ()) {cs : Collaborators S H P C} {rhs : V}
    {m m' : Nat} (h : Run.Behind (iterate solver.settings rhs m cs.begin)
      (iterate solver'.settings rhs m' cs.begin)) :
    Event.evaluations (solver.solve cs rhs m).events <+:
      Event.evaluations (solver'.solve cs rhs m').events := by
  rw [evaluations_solve valid, evaluations_solve valid']
  exact List.reverse_prefix.mpr h

end Solver

end TrustRegion
