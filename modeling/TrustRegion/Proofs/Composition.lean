import TrustRegion.Proofs.Run
import TrustRegion.Solver.Basic

/-! What the phases of a solve are made of: calls, notes and figures, and the questions to the
convergence test. What these do, and what survives their sequence, the phases do. -/
namespace TrustRegion

variable {T V S H P C α β : Type}

open RunM

namespace RunM

section

variable [VectorSpace T V S] [ActsOn V H] [ActsOn V P]

omit [ActsOn V H] [ActsOn V P] in
/-- Computations that turn to nobody but the space. -/
inductive Aloof : {α : Type} → RunM T S H P C α → Prop where
  | pure {α : Type} (a : α) : Aloof (pure a)
  | bind {α β : Type} {m : RunM T S H P C α} {k : α → RunM T S H P C β} (hm : Aloof m)
      (hk : ∀ a, Aloof (k a)) : Aloof (m >>= k)
  | dimension (x : V) : Aloof (dimension x)
  | zerosLike (x : V) : Aloof (zerosLike x)
  | copy (x y : V) : Aloof (copy x y)
  | dot (x y : V) : Aloof (dot x y)
  | norm (x : V) : Aloof (norm x)
  | axpy (a : T) (x y : V) : Aloof (axpy a x y)
  | aypx (a : T) (x y : V) : Aloof (aypx a x y)
  | note (n : Note T) : Aloof (note n)
  | iterations : Aloof iterations
  | countIteration : Aloof countIteration
  | setStepNorm (x : T) : Aloof (setStepNorm x)
  | mapObjective (f : T → T) : Aloof (mapObjective f)

/-- Computations that have nothing to do with the convergence test. -/
inductive Silent : {α : Type} → RunM T S H P C α → Prop where
  | pure {α : Type} (a : α) : Silent (pure a)
  | bind {α β : Type} {m : RunM T S H P C α} {k : α → RunM T S H P C β} (hm : Silent m)
      (hk : ∀ a, Silent (k a)) : Silent (m >>= k)
  | dimension (x : V) : Silent (dimension x)
  | zerosLike (x : V) : Silent (zerosLike x)
  | copy (x y : V) : Silent (copy x y)
  | dot (x y : V) : Silent (dot x y)
  | norm (x : V) : Silent (norm x)
  | axpy (a : T) (x y : V) : Silent (axpy a x y)
  | aypx (a : T) (x y : V) : Silent (aypx a x y)
  | operate (x y : V) : Silent (operate x y)
  | precondition (r z : V) : Silent (precondition r z)
  | note (n : Note T) : Silent (note n)
  | iterations : Silent iterations
  | countIteration : Silent countIteration
  | setStepNorm (x : T) : Silent (setStepNorm x)
  | mapObjective (f : T → T) : Silent (mapObjective f)

theorem Aloof.silent {m : RunM T S H P C α} (h : m.Aloof) : m.Silent := by
  induction h with
  | pure a => exact .pure a
  | bind _ _ hm hk => exact .bind hm hk
  | dimension x => exact .dimension x
  | zerosLike x => exact .zerosLike x
  | copy x y => exact .copy x y
  | dot x y => exact .dot x y
  | norm x => exact .norm x
  | axpy a x y => exact .axpy a x y
  | aypx a x y => exact .aypx a x y
  | note n => exact .note n
  | iterations => exact .iterations
  | countIteration => exact .countIteration
  | setStepNorm x => exact .setStepNorm x
  | mapObjective f => exact .mapObjective f

/-- Computations that ask the convergence test about what they announce. -/
inductive Composed [ConvergenceTest T C] : {α : Type} → RunM T S H P C α → Prop where
  | silent {α : Type} {m : RunM T S H P C α} (h : m.Silent) : Composed m
  | bind {α β : Type} {m : RunM T S H P C α} {k : α → RunM T S H P C β} (hm : Composed m)
      (hk : ∀ a, Composed (k a)) : Composed (m >>= k)
  | judge (i : Nat) (x : T) : Composed (judge i x)

end

end RunM

section Phases

variable [Scalar T] [VectorSpace T V S] [ActsOn V H] [ActsOn V P] {s : Settings T} {rhs : V}

theorem silent_gradientStep {rr : T} {step scratch : V} :
    (gradientStep s rhs rr step scratch : RunM T S H P C V).Silent := by
  unfold gradientStep
  split
  · exact .pure _
  · exact .bind (.setStepNorm _) fun _ => .bind (.axpy _ _ _) fun _ => .bind (.operate _ _) fun _ =>
      .bind (.aypx _ _ _) fun _ => .bind (.dot _ _) fun _ => .bind (.mapObjective _) fun _ =>
      .bind .countIteration fun _ => .pure _

theorem silent_fallBack (s : Settings T) (rhs : V) (b : Start T V) (n : Note T) (reason : Reason) :
    (do
      note n
      return ⟨reason, ← gradientStep s rhs b.rr b.zero b.zero⟩ :
        RunM T S H P C (Stop V)).Silent :=
  .bind (.note _) fun _ => .bind silent_gradientStep fun _ => .pure _

omit [ActsOn V H] [ActsOn V P] in
theorem aloof_boundaryStep {tau curvature rz : T} {direction step : V} :
    (boundaryStep s tau curvature rz direction step : RunM T S H P C V).Aloof :=
  .bind (.setStepNorm _) fun _ => .bind (.axpy _ _ _) fun _ => .bind (.mapObjective _) fun _ =>
    .pure _

omit [ActsOn V H] [ActsOn V P] in
theorem aloof_residualNorm {r z : V} {rz : T} {known? : Option T} :
    (residualNorm s r z rz known? : RunM T S H P C T).Aloof := by
  unfold residualNorm
  split
  · exact .norm _
  · split
    · exact .pure _
    · exact .norm _
  · exact .pure _

theorem silent_leave {rr : T} {it : Iterate T V} :
    (leave s rhs rr it : RunM T S H P C V).Silent := by
  unfold leave
  split
  · split
    · exact aloof_boundaryStep.silent
    · exact silent_gradientStep
  · exact .pure _

omit [ActsOn V H] [ActsOn V P] in
theorem aloof_truncate {it : Iterate T V} : (truncate s it : RunM T S H P C V).Aloof := by
  refine .bind (.note _) fun _ => ?_
  split
  · exact aloof_boundaryStep
  · exact .pure _

theorem silent_advance {it : Iterate T V} :
    (advance s it : RunM T S H P C (Iterate T V)).Silent := by
  refine .bind (.axpy _ _ _) fun _ => .bind (.axpy _ _ _) fun _ =>
    .bind (.precondition _ _) fun _ => ?_
  split
  all_goals
    refine .bind ?_ fun _ => .bind (.setStepNorm _) fun _ => .bind (.mapObjective _) fun _ =>
      .bind (.dot _ _) fun _ => .pure _
  · exact .pure _
  · exact .dot _ _

theorem silent_turn {it next : Iterate T V} :
    (turn s it next : RunM T S H P C (Phase V (Iterate T V))).Silent := by
  refine .bind (.aypx _ _ _) fun _ => ?_
  cases s.directionNorm
  case' unpreconditioned => refine .bind (.dot _ _) fun _ => .bind (.dot _ _) fun _ => ?_
  all_goals
    refine .bind (.pure _) fun _ => .bind (.operate _ _) fun _ => .bind (.dot _ _) fun _ =>
      .bind .countIteration fun _ => ?_
    split
    · exact .bind (.note _) fun _ => .pure _
    · split
      · exact .bind (.note _) fun _ => .pure _
      · exact .pure _

variable [ConvergenceTest T C]

theorem composed_first {b : Start T V} :
    (first s rhs b : RunM T S H P C (Phase V (Iterate T V))).Composed := by
  refine .bind (.silent aloof_residualNorm.silent) fun _ => .bind (.judge _ _) fun _ =>
    .silent (.bind (.note _) fun _ => .bind (.copy _ _) fun _ => .bind (.operate _ _) fun _ =>
      .bind .countIteration fun _ => .bind (.dot _ _) fun _ => ?_)
  split
  · exact .bind (.note _) fun _ => .bind silent_gradientStep fun _ => .pure _
  · cases s.directionNorm
    case' preconditioned => refine .bind (.pure _) fun _ => ?_
    case' unpreconditioned => refine .bind (.dot _ _) fun _ => ?_
    all_goals
      split
      · exact .bind (.note _) fun _ => .bind silent_leave fun _ => .pure _
      · exact .pure _

theorem composed_review {it next : Iterate T V} :
    (review s it next : RunM T S H P C (Option Reason)).Composed := by
  unfold review
  split
  · exact .silent (.bind (.note _) fun _ => .pure _)
  · refine .bind (.silent aloof_residualNorm.silent) fun _ => .bind (.silent .iterations) fun _ =>
      .bind (.judge _ _) fun verdict => .silent ?_
    cases verdict with
    | converged => exact .bind (.note _) fun _ => .pure _
    | diverged => exact .bind (.note _) fun _ => .pure _
    | iterating =>
      refine .bind .iterations fun _ => .bind (.note _) fun _ => ?_
      split
      · exact .bind (.note _) fun _ => .pure _
      · exact .pure _

theorem composed_passes (remaining : Nat) (it : Iterate T V) :
    (passes s remaining it : RunM T S H P C (Stop V)).Composed := by
  rw [passes.eq_def]
  refine .bind (.silent .iterations) fun _ => .bind (.silent (.note _)) fun _ => ?_
  split
  · exact .silent (.bind aloof_truncate.silent fun _ => .pure _)
  · refine .bind (.silent silent_advance) fun _ => .bind composed_review fun outcome => ?_
    cases outcome with
    | some reason => exact .silent (.pure _)
    | none =>
      cases remaining with
      | zero => exact .silent (.bind .iterations fun _ => .bind (.note _) fun _ => .pure _)
      | succ remaining =>
        refine .bind (.silent silent_turn) fun phase => ?_
        cases phase with
        | stopped reason step => exact .silent (.pure _)
        | going it => exact composed_passes remaining it

end Phases

end TrustRegion
