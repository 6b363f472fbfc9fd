import TrustRegion.Proofs.Ieee.Number
import TrustRegion.Proofs.Roots

/-! The phases of a solve for floating-point vectors: products that are finite show that vectors
are, whatever the operator and the preconditioner have written. -/
namespace TrustRegion

open Scalar (isFinite)
open RunM

variable {T H P C : Type} [Scalar T] {s : Settings T} {rhs : List T}

/-- The multiple of the right-hand side that a gradient step consists of. -/
def Settings.gradientFactor (s : Settings T) (rr : T) : T :=
  if s.radiusSq ≥ rr then 1 else Scalar.sqrt (s.radiusSq / rr)

section Steps

variable {step : List T}

theorem yields_gradientStep [ActsOn (List T) H] {rr : T} {scratch : List T} :
    (gradientStep s rhs rr step scratch : RunM T (Euclidean T) H P C (List T)).Yields fun y =>
      (s.radius == 0) = true ∧ y = step ∨
        (s.radius == 0) = false ∧ y = Dense.combine (s.gradientFactor rr) rhs 1 step := by
  unfold gradientStep
  split
  · next free => exact yields_pure (.inl ⟨free, rfl⟩)
  · next bounded =>
    refine .bind fun _ => yields_axpy.andThen fun _ hstep => .bind fun _ => .bind fun _ =>
      .bind fun _ => .bind fun _ => .bind fun _ => yields_pure (.inr ⟨by simpa using bounded, ?_⟩)
    simpa only [Settings.gradientFactor, decide_eq_true_eq] using hstep

end Steps

section Phases

variable [Ieee T] {it next : Iterate T (List T)}

/-- A start with a finite right-hand side and zeros for the step. A finite product of residual and
preconditioned residual is one of finite vectors. -/
structure Start.IsSound (rhs : List T) (b : Start T (List T)) : Prop where
  rhs_finite : Dense.IsFinite rhs
  zero : b.zero = Dense.zeros rhs.length
  vectors : isFinite b.rz = true → Dense.IsFinite b.residual ∧ Dense.IsFinite b.preconditioned

theorem yields_start [ActsOn (List T) P] :
    (start rhs : RunM T (Euclidean T) H P C (Start T (List T))).Yields (Start.IsSound rhs) := by
  refine yields_zerosLike.andThen ?_
  rintro _ rfl
  refine yields_copy.andThen ?_
  rintro _ rfl
  refine yields_dot.andThen fun rr hrr => ?_
  split
  · next finite =>
    exact .bind fun z => yields_dot.andThen fun rz hrz => yields_pure ⟨(hrr finite).1, rfl, hrz⟩
  · rintro run b run' ⟨⟩

/-- A curvature that lets a solve go on, which shows direction and product to be finite. -/
structure Iterate.IsCurved (it : Iterate T (List T)) : Prop where
  curvature_finite : isFinite it.curvature = true
  curvature_pos : 0 < it.curvature
  direction : Dense.IsFinite it.direction
  product : Dense.IsFinite it.product

omit [Scalar T] [Ieee T] in
structure Iterate.At (step residual preconditioned : List T) (rz : T) (it : Iterate T (List T)) :
    Prop where
  step : it.step = step
  residual : it.residual = residual
  preconditioned : it.preconditioned = preconditioned
  rz : it.rz = rz

/-- What the first phase hands on. -/
def Start.Opens (b : Start T (List T)) : Phase (List T) (Iterate T (List T)) → Prop
  | .going it => it.IsCurved ∧ it.At b.zero b.residual b.preconditioned b.rz
  | .stopped _ _ => True

theorem yields_first_sound [ActsOn (List T) H] [ConvergenceTest T C] {b : Start T (List T)} :
    (first s rhs b :
      RunM T (Euclidean T) H P C (Phase (List T) (Iterate T (List T)))).Yields b.Opens := by
  refine .bind fun _ => .bind fun _ => .bind fun _ => yields_copy.andThen ?_
  rintro _ rfl
  refine .bind fun product => .bind fun _ => yields_dot.andThen fun curvature hcurvature => ?_
  split
  · exact .bind fun _ => .bind fun _ => yields_pure trivial
  · next hfinite =>
    have hfinite : isFinite curvature = true := by simpa using hfinite
    obtain ⟨hdirection, hproduct⟩ := hcurvature hfinite
    cases s.directionNorm
    all_goals
      refine .bind fun directionSq => ?_
      split
      · exact .bind fun _ => .bind fun _ => yields_pure trivial
      · next curved =>
        exact yields_pure ⟨⟨hfinite, Ieee.pos_of_not_le hfinite curved, hdirection, hproduct⟩,
          ⟨rfl, rfl, rfl, rfl⟩⟩

/-- A full step: the step goes along the direction, and a finite product of the new residuals shows
them to be finite. -/
structure Iterate.Advances (it next : Iterate T (List T)) : Prop where
  step : next.step = Dense.combine it.alpha it.direction 1 it.step
  vectors : isFinite next.rz = true →
    Dense.IsFinite next.residual ∧ Dense.IsFinite next.preconditioned

theorem yields_advance [ActsOn (List T) P] :
    (advance s it : RunM T (Euclidean T) H P C (Iterate T (List T))).Yields it.Advances := by
  refine yields_axpy.andThen ?_
  rintro _ rfl
  refine .bind fun _ => .bind fun _ => ?_
  cases s.directionNorm
  all_goals
    exact .bind fun _ => .bind fun _ => .bind fun _ => yields_dot.andThen fun _ hrz =>
      yields_pure ⟨rfl, hrz⟩

section Turn

variable [ActsOn (List T) H]

omit [Ieee T] in
/-- The part of a turn that ends with the application of the operator; the curvature is still that
of the old direction. -/
def steer (s : Settings T) (it next : Iterate T (List T)) :
    RunM T (Euclidean T) H P C (Iterate T (List T)) := do
  let beta := it.beta next
  let direction ← aypx beta next.preconditioned it.direction
  let (cross, directionSq) ←
    match s.directionNorm with
    | .preconditioned =>
      pure (beta * (it.cross + it.alpha * it.directionSq),
        beta * (it.rz + beta * it.directionSq))
    | .unpreconditioned => do
      let cross ← dot next.step direction
      let directionSq ← dot direction direction
      pure (cross, directionSq)
  let product ← operate direction it.product
  return { next with direction, product, cross, directionSq }

omit [Ieee T] in
theorem turn_eq_steer : (turn s it next : RunM T (Euclidean T) H P C _) = do
    let steered ← steer s it next
    let curvature ← dot steered.direction steered.product
    countIteration
    if !isFinite curvature then
      note (.badOperator curvature)
      return .stopped .badOperator steered.step
    else if curvature ≤ 0 then
      note (.negativeCurvature curvature)
      return .stopped .negativeCurvature steered.step
    else return .going { steered with curvature } := by
  unfold turn steer
  cases s.directionNorm <;> simp only [bind_assoc, pure_bind]

omit [Ieee T] in
theorem yields_steer : (steer s it next : RunM T (Euclidean T) H P C _).Yields
    (Iterate.At next.step next.residual next.preconditioned next.rz) := by
  unfold steer
  refine .bind fun _ => ?_
  cases s.directionNorm
  case' unpreconditioned => refine .bind fun _ => .bind fun _ => ?_
  all_goals exact .bind fun _ => .bind fun _ => yields_pure ⟨rfl, rfl, rfl, rfl⟩

/-- What a turn hands on, or the step with which it stops. -/
def Iterate.Turns (next : Iterate T (List T)) : Phase (List T) (Iterate T (List T)) → Prop
  | .going it => it.IsCurved ∧ it.At next.step next.residual next.preconditioned next.rz
  | .stopped _ step => step = next.step

theorem yields_turn_sound : (turn s it next : RunM T (Euclidean T) H P C _).Yields next.Turns := by
  rw [turn_eq_steer]
  refine yields_steer.andThen fun steered hat =>
    yields_dot.andThen fun curvature hcurvature => .bind fun _ => ?_
  split
  · exact .bind fun _ => yields_pure hat.step
  · next hfinite =>
    have hfinite : isFinite curvature = true := by simpa using hfinite
    obtain ⟨hdirection, hproduct⟩ := hcurvature hfinite
    split
    · exact .bind fun _ => yields_pure hat.step
    · next curved =>
      exact yields_pure ⟨⟨hfinite, Ieee.pos_of_not_le hfinite curved, hdirection, hproduct⟩,
        ⟨hat.step, hat.residual, hat.preconditioned, hat.rz⟩⟩

/-- A turn stops where it has come if direction or product has an entry that is not finite. -/
theorem turn_of_infinite {steered : Iterate T (List T)} {run run₁ : Run T (Euclidean T) H P C}
    (steers : steer s it next run = .ok steered run₁)
    (same : steered.direction.length = steered.product.length)
    (infinite : ¬ (Dense.IsFinite steered.direction ∧ Dense.IsFinite steered.product)) :
    ∃ run₂, turn s it next run = .ok (.stopped .badOperator next.step) run₂ := by
  have hdot : dot steered.direction steered.product run₁ =
      .ok (Dense.dot steered.direction steered.product)
        (run₁.log (.called (.space .dot) none)) := by
    simp only [dot, VectorSpace.dot, Euclidean.dot, if_pos same]
    rfl
  have hcurvature : isFinite (Dense.dot steered.direction steered.product) = false :=
    Bool.eq_false_iff.mpr fun finite => infinite (Dense.isFinite_of_dot same finite)
  rw [turn_eq_steer, bind_of_ok steers, bind_of_ok hdot, bind_of_ok (countIteration_apply _),
    if_pos (by simp [hcurvature]), bind_of_ok (note_apply _ _), (yields_steer steers).step]
  exact ⟨_, rfl⟩

end Turn

section Review

omit [Ieee T] in
theorem residualNorm_total (s : Settings T) (r z : List T) (rz : T) (known? : Option T)
    (run : Run T (Euclidean T) H P C) :
    ∃ v run', residualNorm s r z rz known? run = .ok v run' := by
  unfold residualNorm
  cases s.residualNorm with
  | preconditioned => exact ⟨_, _, rfl⟩
  | unpreconditioned => cases known? <;> exact ⟨_, _, rfl⟩
  | natural => exact ⟨_, _, rfl⟩

theorem review_of_infinite [ConvergenceTest T C] (finite : isFinite it.rz = true)
    (infinite : isFinite next.rz = false) (run : Run T (Euclidean T) H P C) :
    ∃ reason run', review s it next run = .ok (some reason) run' ∧
      (reason = .indefinitePreconditioner ∨ reason = .breakdown ∨
        ∃ verdict : Verdict, verdict.reason? = some reason) := by
  have hbeta : isFinite (it.beta next) = false :=
    Bool.eq_false_iff.mpr fun regular =>
      Bool.eq_false_iff.mp infinite (Ieee.isFinite_div regular finite)
  unfold review
  by_cases neg : next.rz < 0
  · rw [if_pos neg]
    exact ⟨_, _, rfl, .inl rfl⟩
  · obtain ⟨norm, run₁, hnorm⟩ :=
      residualNorm_total s next.residual next.preconditioned next.rz none run
    obtain ⟨verdict, run₂, hjudge⟩ : ∃ verdict run₂,
        judge run₁.figures.iterations norm run₁ = .ok verdict run₂ := ⟨_, _, rfl⟩
    rw [if_neg neg, bind_of_ok hnorm, bind_of_ok (iterations_apply _), bind_of_ok hjudge]
    cases verdict with
    | converged why => exact ⟨_, _, rfl, .inr (.inr ⟨.converged why, rfl⟩)⟩
    | diverged why => exact ⟨_, _, rfl, .inr (.inr ⟨.diverged why, rfl⟩)⟩
    | iterating =>
      dsimp only
      rw [bind_of_ok (iterations_apply _), bind_of_ok (note_apply _ _),
        if_pos (by simp [hbeta])]
      exact ⟨_, _, rfl, .inr (.inl rfl)⟩

end Review

end Phases

end TrustRegion
