import TrustRegion.Solver.Run
import TrustRegion.Solver.Settings

/-!
Truncated conjugate gradients: an approximate minimiser of `-b·s + ½ s·H s` over the steps `s` of
norm at most the radius.

The step `d` grows along directions `p` that are conjugate under `H`; `r` is the residual `b - H d`
and `z` the preconditioned residual. A radius of zero is no constraint. Each pass predicts the norm
of the next step before it takes it, and stops on the boundary if that norm would reach the radius.
-/
namespace TrustRegion

/-- What a pass starts from: `d`, `r`, `z`, `p` and `H p`, the products `r·z` and `p·H p`, and what
is tracked of the squared norm of `d`, of `d` times `p` and of the squared norm of `p`. -/
structure Iterate (T V : Type) where
  step : V
  residual : V
  preconditioned : V
  direction : V
  product : V
  rz : T
  curvature : T
  stepSq : T
  cross : T
  directionSq : T

/-- A phase of a solve either ends it or hands on to the next. -/
inductive Phase (V α : Type) where
  | stopped (reason : Reason) (step : V)
  | going (value : α)

structure Stop (V : Type) where
  reason : Reason
  step : V

open Scalar (two half sqrt isFinite)
open RunM

variable {T V S H P C : Type} [Scalar T]

namespace Settings

def radiusSq (s : Settings T) : T := s.radius * s.radius

def isConstrained (s : Settings T) : Bool := decide (s.radius > 0)

end Settings

namespace Iterate

def alpha (it : Iterate T V) : T := it.rz / it.curvature

/-- The square of the norm that the step would have after the full step along `p`. -/
def nextSq (it : Iterate T V) : T :=
  it.stepSq + it.alpha * (two * it.cross + it.alpha * it.directionSq)

/-- The positive root of `‖d + τ p‖² = radius²`. -/
def boundary (s : Settings T) (it : Iterate T V) : T :=
  (sqrt (it.cross * it.cross + it.directionSq * (s.radiusSq - it.stepSq)) - it.cross)
    / it.directionSq

def beta (it next : Iterate T V) : T := next.rz / it.rz

end Iterate

/-- The change of the objective over `tau` times a direction of the given curvature. -/
def modelChange (tau curvature rz : T) : T := tau * (half * tau * curvature - rz)

section Steps

variable [VectorSpace T V S]

/-- The gradient step cut off at the radius, with its objective computed afresh; `rr` is `b·b`. No
step is taken without a radius. -/
def gradientStep [ActsOn V H] (s : Settings T) (rhs : V) (rr : T) (step scratch : V) :
    RunM T S H P C V :=
  if s.radius == 0 then pure step
  else do
    let inside := decide (s.radiusSq ≥ rr)
    setStepNorm (if inside then sqrt rr else s.radius)
    let step ← axpy (if inside then 1 else sqrt (s.radiusSq / rr)) rhs step
    let product ← operate step scratch
    let difference ← aypx (-half) rhs product
    let value ← dot step difference
    mapObjective fun _ => -value
    countIteration
    return step

/-- The step from `step` along `direction` that ends on the boundary, `tau` times the direction. -/
def boundaryStep (s : Settings T) (tau curvature rz : T) (direction step : V) :
    RunM T S H P C V := do
  setStepNorm s.radius
  let step ← axpy tau direction step
  mapObjective (· + modelChange tau curvature rz)
  return step

/-- The norm of the residual that the settings ask for; `known?` is the norm of `r` where it is
known already. -/
def residualNorm (s : Settings T) (residual preconditioned : V) (rz : T) (known? : Option T) :
    RunM T S H P C T :=
  match s.residualNorm with
  | .preconditioned => norm preconditioned
  | .unpreconditioned =>
    match known? with
    | some known => pure known
    | none => norm residual
  | .natural => pure (sqrt rz)

def judge [ConvergenceTest T C] (iteration : Nat) (norm : T) : RunM T S H P C Verdict := do
  record (.residual iteration norm)
  evaluate iteration norm

end Steps

/-- The first residual, preconditioned once, with `r·r` and `r·z`, and a vector of zeros. -/
structure Start (T V : Type) where
  zero : V
  residual : V
  preconditioned : V
  rr : T
  rz : T

section Solve

variable [VectorSpace T V S] [ActsOn V H] [ActsOn V P] [ConvergenceTest T C]

/-- Takes the right-hand side as the residual of the zero step. -/
def start (rhs : V) : RunM T S H P C (Start T V) := do
  let zero ← zerosLike rhs
  let residual ← copy rhs zero
  let rr ← dot residual residual
  if isFinite rr then
    let preconditioned ← precondition residual zero
    let rz ← dot residual preconditioned
    return { zero, residual, preconditioned, rr, rz }
  else throw (.nonFiniteRightHandSide (Scalar.toFloat rr))

/-- Follows the first direction, which has no positive curvature, to the boundary. Without a radius
there is nowhere to go; a direction without a norm gives way to the gradient. -/
def leave (s : Settings T) (rhs : V) (rr : T) (it : Iterate T V) : RunM T S H P C V :=
  if s.isConstrained then
    if it.directionSq > 0 then
      boundaryStep s (sqrt (s.radiusSq / it.directionSq)) it.curvature it.rz it.direction it.step
    else gradientStep s rhs rr it.step it.product
  else pure it.step

/-- The first direction is `z`. The first answer of the convergence test is not heeded: at least
one step is taken. -/
def first (s : Settings T) (rhs : V) (b : Start T V) : RunM T S H P C (Phase V (Iterate T V)) := do
  let norm ← residualNorm s b.residual b.preconditioned b.rz (some (sqrt b.rr))
  let verdict ← judge 0 norm
  note (.initialResidual norm verdict)
  let direction ← copy b.preconditioned b.zero
  let product ← operate direction b.zero
  countIteration
  let curvature ← dot direction product
  if !isFinite curvature then
    note (.badOperator curvature)
    return .stopped .badOperator (← gradientStep s rhs b.rr b.zero product)
  else
    let directionSq ←
      match s.directionNorm with
      | .preconditioned => pure b.rz
      | .unpreconditioned => dot direction direction
    let it : Iterate T V :=
      { step := b.zero, residual := b.residual, preconditioned := b.preconditioned, direction
        product, rz := b.rz, curvature, stepSq := 0, cross := 0, directionSq }
    if curvature ≤ 0 then
      note (.negativeCurvature curvature)
      return .stopped .negativeCurvature (← leave s rhs b.rr it)
    else return .going it

/-- Ends on the boundary, or where it is if the direction has no norm. -/
def truncate (s : Settings T) (it : Iterate T V) : RunM T S H P C V := do
  note .constrainedStep
  if it.directionSq > 0 then
    boundaryStep s (it.boundary s) it.curvature it.rz it.direction it.step
  else return it.step

/-- The full step along `p`: a new `d`, `r`, `z` and `r·z` beside the old direction. -/
def advance (s : Settings T) (it : Iterate T V) : RunM T S H P C (Iterate T V) := do
  let step ← axpy it.alpha it.direction it.step
  let residual ← axpy (-it.alpha) it.product it.residual
  let preconditioned ← precondition residual it.preconditioned
  let stepSq ←
    match s.directionNorm with
    | .preconditioned => pure it.nextSq
    | .unpreconditioned => dot step step
  setStepNorm (sqrt stepSq)
  mapObjective (· - half * it.alpha * it.rz)
  let rz ← dot residual preconditioned
  return { it with step, residual, preconditioned, stepSq, rz }

/-- Whether to stop after a full step: by the convergence test or for a vanished coefficient. -/
def review (s : Settings T) (it next : Iterate T V) : RunM T S H P C (Option Reason) := do
  if next.rz < 0 then
    note (.turnedIndefinite next.rz)
    return some .indefinitePreconditioner
  else
    let norm ← residualNorm s next.residual next.preconditioned next.rz none
    match ← judge (← iterations) norm with
    | .converged why =>
      note (.truncatedStep norm)
      return some (.converged why)
    | .diverged why =>
      note (.testDiverged why)
      return some (.diverged why)
    | .iterating =>
      let beta := it.beta next
      note (.recurrence (← iterations) next.rz beta)
      if !isFinite beta || decide (Scalar.abs beta ≤ 0) then
        note (.breakdown beta)
        return some .breakdown
      else return none

/-- The next direction `z + β p`, its tracked products and its curvature. -/
def turn (s : Settings T) (it next : Iterate T V) : RunM T S H P C (Phase V (Iterate T V)) := do
  let beta := it.beta next
  let direction ← aypx beta next.preconditioned it.direction
  let (cross, directionSq) ←
    match s.directionNorm with
    | .preconditioned =>
      pure (beta * (it.cross + it.alpha * it.directionSq),
        beta * (it.rz + beta * it.directionSq))
    | .unpreconditioned => do
      let cross ← dot next.step direction
      let directionSq ← dot direction direction
      pure (cross, directionSq)
  let product ← operate direction it.product
  let curvature ← dot direction product
  countIteration
  if !isFinite curvature then
    note (.badOperator curvature)
    return .stopped .badOperator next.step
  else if curvature ≤ 0 then
    note (.negativeCurvature curvature)
    return .stopped .negativeCurvature next.step
  else return .going { next with direction, product, curvature, cross, directionSq }

/-- Passes from an iterate of positive curvature on, at most `remaining` more after this one. -/
def passes (s : Settings T) : Nat → Iterate T V → RunM T S H P C (Stop V)
  | remaining, it => do
    note (.pass (← iterations) it.alpha it.curvature it.nextSq)
    if s.isConstrained && decide (it.nextSq ≥ s.radiusSq) then
      return ⟨.constrainedStep, ← truncate s it⟩
    else
      let next ← advance s it
      match ← review s it next with
      | some reason => return ⟨reason, next.step⟩
      | none =>
        match remaining with
        | 0 =>
          note (.iterationLimit (← iterations))
          return ⟨.iterationLimit, next.step⟩
        | remaining + 1 =>
          match ← turn s it next with
          | .stopped reason step => return ⟨reason, step⟩
          | .going it => passes s remaining it

/-- A whole solve for the right-hand side `b`, of at most as many iterations as `b` has entries. -/
def iterate (s : Settings T) (rhs : V) (maxIterations : Nat) : RunM T S H P C (Stop V) := do
  let cap := min maxIterations (← dimension rhs)
  let b ← start rhs
  if !isFinite b.rz then
    note (.badPreconditioner b.rz)
    return ⟨.badPreconditioner, ← gradientStep s rhs b.rr b.zero b.zero⟩
  else if b.rz < 0 then
    note (.indefinitePreconditioner b.rz)
    return ⟨.indefinitePreconditioner, ← gradientStep s rhs b.rr b.zero b.zero⟩
  else
    match ← first s rhs b with
    | .stopped reason step => return ⟨reason, step⟩
    | .going it => passes s (cap - 1) it

end Solve

end TrustRegion
