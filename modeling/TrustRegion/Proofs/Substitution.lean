import TrustRegion.Proofs.Norms
import TrustRegion.Proofs.Sessions
import TrustRegion.Proofs.Verdicts

/-! Solves that differ in their operators and preconditioners: where these are applied they answer
alike, and so the solves repeat one another. -/
namespace TrustRegion

variable {T V S H P C A α β : Type}

/-- What stands in for another answers alike, application after application, as long as inputs and
buffers are in `D`. -/
def Substitutes [ActsOn V A] (D : V → V → Prop) (a a' : A) : Prop :=
  ∃ J : A → A → Prop, J a a' ∧ ∀ b b' x y, J b b' → D x y →
    (ActsOn.apply b x y).1 = (ActsOn.apply b' x y).1 ∧
      J (ActsOn.apply b x y).2 (ActsOn.apply b' x y).2

namespace Substitutes

variable [ActsOn V A] {D : V → V → Prop} {a a' : A} {x y : V}

theorem refl (D : V → V → Prop) (a : A) : Substitutes D a a := by
  refine ⟨Eq, rfl, ?_⟩
  rintro b _ x y rfl -
  exact ⟨rfl, rfl⟩

theorem written_eq (h : Substitutes D a a') (inside : D x y) :
    (ActsOn.apply a x y).1 = (ActsOn.apply a' x y).1 := by
  obtain ⟨J, hJ, alike⟩ := h
  exact (alike a a' x y hJ inside).1

theorem next (h : Substitutes D a a') (inside : D x y) :
    Substitutes D (ActsOn.apply a x y).2 (ActsOn.apply a' x y).2 := by
  obtain ⟨J, hJ, alike⟩ := h
  exact ⟨J, (alike a a' x y hJ inside).2, alike⟩

theorem of_stays (stays : ∀ x y : V, (ActsOn.apply a x y).2 = a)
    (stays' : ∀ x y : V, (ActsOn.apply a' x y).2 = a')
    (alike : ∀ x y, D x y → (ActsOn.apply a x y).1 = (ActsOn.apply a' x y).1) :
    Substitutes D a a' := by
  refine ⟨fun b b' => b = a ∧ b' = a', ⟨rfl, rfl⟩, ?_⟩
  rintro b b' x y ⟨rfl, rfl⟩ inside
  exact ⟨alike x y inside, stays x y, stays' x y⟩

end Substitutes

/-- Two runs that are the same up to their operators and preconditioners, which stand in for those
of the first. -/
def Run.Substituted [ActsOn V H] [ActsOn V P] (D : V → V → Prop) (run run' : Run T S H P C) :
    Prop :=
  ∃ operator preconditioner, Substitutes D run.operator operator ∧
    Substitutes D run.preconditioner preconditioner ∧
    run' = { run with operator, preconditioner }

namespace RunM

open Run

/-- Computations to which substitutes within `D` make no difference, and whose results all have the
property. -/
structure Within [ActsOn V H] [ActsOn V P] (D : V → V → Prop) (p : α → Prop)
    (m : RunM T S H P C α) : Prop where
  keeps : m.Keeps (Substituted D)
  yields : m.Yields p

variable [ActsOn V H] [ActsOn V P] {D : V → V → Prop} {p : α → Prop} {q : β → Prop}
  {m : RunM T S H P C α} {k : α → RunM T S H P C β} {run run' : Run T S H P C}

theorem joined_ofWritten (callee : Callee) (written : Written V) (h : Substituted D run run') :
    Joined (Substituted D) Eq (run.ofWritten callee written) (run'.ofWritten callee written) := by
  obtain ⟨operator, preconditioner, hH, hP, rfl⟩ := h
  unfold Run.ofWritten
  split
  · exact ⟨rfl, operator, preconditioner, hH, hP, rfl⟩
  · exact ⟨rfl, operator, preconditioner, hH, hP, rfl⟩

theorem joined_ofAnswer (callee : Callee) (answer : Except Failure T)
    (h : Substituted D run run') :
    Joined (Substituted D) Eq (run.ofAnswer callee answer) (run'.ofAnswer callee answer) := by
  obtain ⟨operator, preconditioner, hH, hP, rfl⟩ := h
  cases answer with
  | ok number => exact ⟨rfl, operator, preconditioner, hH, hP, rfl⟩
  | error failure => exact ⟨rfl, operator, preconditioner, hH, hP, rfl⟩

theorem Aloof.keeps [VectorSpace T V S] (h : m.Aloof) : m.Keeps (Substituted D) := by
  induction h with
  | pure a => exact fun _ _ substituted => ⟨rfl, substituted⟩
  | bind _ _ hm hk => exact hm.bind hk
  | copy | axpy | aypx =>
    rintro run _ ⟨operator, preconditioner, hH, hP, rfl⟩
    exact joined_ofWritten _ _ ⟨operator, preconditioner, hH, hP, rfl⟩
  | dot | norm =>
    rintro run _ ⟨operator, preconditioner, hH, hP, rfl⟩
    exact joined_ofAnswer _ _ ⟨operator, preconditioner, hH, hP, rfl⟩
  | dimension | zerosLike | note | iterations | countIteration | setStepNorm | mapObjective =>
    rintro run _ ⟨operator, preconditioner, hH, hP, rfl⟩
    exact ⟨rfl, operator, preconditioner, hH, hP, rfl⟩

theorem keeps_judge [ConvergenceTest T C] (i : Nat) (x : T) :
    (judge i x : RunM T S H P C Verdict).Keeps (Substituted D) := by
  rintro run _ ⟨operator, preconditioner, hH, hP, rfl⟩
  exact ⟨rfl, operator, preconditioner, hH, hP, rfl⟩

theorem keeps_operate {x y : V} (inside : D x y) :
    (operate x y : RunM T S H P C V).Keeps (Substituted D) := by
  rintro run _ ⟨operator, preconditioner, hH, hP, rfl⟩
  simp only [operate, ← hH.written_eq inside]
  exact joined_ofWritten _ _ ⟨_, preconditioner, hH.next inside, hP, rfl⟩

theorem keeps_precondition {x y : V} (inside : D x y) :
    (precondition x y : RunM T S H P C V).Keeps (Substituted D) := by
  rintro run _ ⟨operator, preconditioner, hH, hP, rfl⟩
  simp only [precondition, ← hP.written_eq inside]
  exact joined_ofWritten _ _ ⟨operator, _, hH, hP.next inside, rfl⟩

namespace Within

theorem pure {a : α} (h : p a) : (pure a : RunM T S H P C α).Within D p :=
  ⟨fun _ _ substituted => ⟨rfl, substituted⟩, yields_pure h⟩

theorem throw (failure : Failure) : (throw failure : RunM T S H P C α).Within D p :=
  ⟨fun _ _ substituted => ⟨rfl, substituted⟩, nofun⟩

/-- What comes after may rely on the property. -/
theorem keeps_bind (hm : m.Within D p) (hk : ∀ a, p a → (k a).Keeps (Substituted D)) :
    (m >>= k).Keeps (Substituted D) :=
  fun _ _ substituted => hm.keeps.joined_bind substituted
    fun a _ _ hrun _ hmid => hk a (hm.yields hrun) hmid

theorem bind (hm : m.Within D p) (hk : ∀ a, p a → (k a).Within D q) :
    (m >>= k).Within D q where
  keeps := hm.keeps_bind fun a ha => (hk a ha).keeps
  yields := hm.yields.andThen fun a ha => (hk a ha).yields

theorem step (hm : m.Keeps (Substituted D)) (hk : ∀ a, (k a).Within D q) :
    (m >>= k).Within D q :=
  bind ⟨hm, fun _ _ _ _ => trivial⟩ fun a _ => hk a

end Within

end RunM

section Phases

variable [VectorSpace T V S] {s : Settings T} {it next : Iterate T V}

open RunM

theorem aloof_trackStep [Scalar T] {step : V} :
    (trackStep s it step : RunM T S H P C T).Aloof := by
  unfold trackStep
  cases s.directionNorm with
  | preconditioned => exact .pure _
  | unpreconditioned => exact .dot _ _

theorem aloof_trackTurn [Scalar T] {direction : V} :
    (trackTurn s it next direction : RunM T S H P C (T × T)).Aloof := by
  unfold trackTurn
  cases s.directionNorm with
  | preconditioned => exact .pure _
  | unpreconditioned => exact .bind (.dot _ _) fun _ => .bind (.dot _ _) fun _ => .pure _

theorem keeps_review [Scalar T] [ActsOn V H] [ActsOn V P] [ConvergenceTest T C]
    {D : V → V → Prop} :
    (review s it next : RunM T S H P C (Option Reason)).Keeps (Run.Substituted D) := by
  unfold review
  split
  · exact (Aloof.bind (.note _) fun _ => .pure _).keeps
  · refine aloof_residualNorm.keeps.bind fun _ => Aloof.iterations.keeps.bind fun _ =>
      (keeps_judge _ _).bind fun verdict => ?_
    cases verdict with
    | converged | diverged => exact (Aloof.bind (.note _) fun _ => .pure _).keeps
    | iterating =>
      refine Aloof.iterations.keeps.bind fun _ => (Aloof.note _).keeps.bind fun _ => ?_
      split
      · exact (Aloof.bind (.note _) fun _ => .pure _).keeps
      · exact (Aloof.pure _).keeps

end Phases

namespace Solver

variable [Scalar T] [VectorSpace T V S] [ActsOn V H] [ActsOn V P] [ConvergenceTest T C]
  {D : V → V → Prop} {solver : Solver T} {cs : Collaborators S H P C} {rhs : V} {m : Nat}

/-- Collaborators that stand in for others where a solve applies these do not change it. -/
theorem solve_repeats_of_keeps
    (keeps : solver.settings.validate = .ok () →
      (iterate solver.settings rhs m : RunM T S H P C (Stop V)).Keeps (Run.Substituted D))
    {operator : H} {preconditioner : P} (hH : Substitutes D cs.operator operator)
    (hP : Substitutes D cs.preconditioner preconditioner) :
    (solver.solve cs rhs m).Repeats
      (solver.solve { cs with operator, preconditioner } rhs m) := by
  cases valid : solver.settings.validate with
  | error failure =>
    simp only [solve, valid]
    exact ⟨rfl, rfl, rfl⟩
  | ok =>
    have alike : Run.Joined (Run.Substituted D) Eq (iterate solver.settings rhs m cs.begin)
        (iterate solver.settings rhs m
          (Collaborators.begin { cs with operator, preconditioner })) :=
      keeps valid ⟨operator, preconditioner, hH, hP, rfl⟩
    obtain ⟨stop, run, _, _, h, h', rfl, _, _, -, -, rfl⟩ |
      ⟨failure, run, _, h, h', _, _, -, -, rfl⟩ := Run.Paired.cases alike
    · rw [solve_of_ok valid h, solve_of_ok valid h']
      exact ⟨rfl, rfl, rfl⟩
    · rw [solve_of_error valid h, solve_of_error valid h']
      exact ⟨rfl, rfl, rfl⟩

end Solver

end TrustRegion
