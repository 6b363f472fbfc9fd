import Mathlib.Analysis.InnerProductSpace.Basic
import TrustRegion.Solver.Iteration

/-! Truncated conjugate gradients in a real inner product space: the passes that can be reached and
the steps that can be returned when the operator and the preconditioner answer by two relations. -/
namespace TrustRegion

open scoped RealInnerProductSpace

variable {E : Type} [NormedAddCommGroup E] [InnerProductSpace ℝ E]

noncomputable section

/-- The quadratic model `-b·s + ½ s·A s`. -/
def model (A : E →ₗ[ℝ] E) (b s : E) : ℝ := -⟪b, s⟫ + 1 / 2 * ⟪s, A s⟫

/-- What a solve starts from, with `z` as the preconditioned form of the right-hand side `b`. -/
def Start.opening (b z : E) : Start ℝ E where
  zero := 0
  residual := b
  preconditioned := z
  rr := ⟪b, b⟫
  rz := ⟪b, z⟫

namespace Iterate

def fullLength (it : Iterate ℝ E) : ℝ := it.rz / it.curvature

def fullSq (it : Iterate ℝ E) : ℝ :=
  it.stepSq + it.fullLength * (2 * it.cross + it.fullLength * it.directionSq)

/-- The length of the step along `p` that ends on the boundary of the region of radius `ρ`. -/
def boundaryLength (ρ : ℝ) (it : Iterate ℝ E) : ℝ :=
  (√(it.cross * it.cross + it.directionSq * (ρ * ρ - it.stepSq)) - it.cross) / it.directionSq

def changeAlong (it : Iterate ℝ E) (τ : ℝ) : ℝ := τ * (1 / 2 * τ * it.curvature - it.rz)

/-- The iterate of the first pass, for the right-hand side `b` with `z` as its preconditioned form
and `w` as the product of `z`. -/
def opening (norm : DirectionNorm) (b z w : E) : Iterate ℝ E where
  step := 0
  residual := b
  preconditioned := z
  direction := z
  product := w
  rz := ⟪b, z⟫
  curvature := ⟪z, w⟫
  stepSq := 0
  cross := 0
  directionSq :=
    match norm with
    | .preconditioned => ⟪b, z⟫
    | .unpreconditioned => ⟪z, z⟫

def nextStep (it : Iterate ℝ E) : E := it.step + it.fullLength • it.direction

def nextResidual (it : Iterate ℝ E) : E := it.residual - it.fullLength • it.product

def nextStepSq (norm : DirectionNorm) (it : Iterate ℝ E) : ℝ :=
  match norm with
  | .preconditioned => it.fullSq
  | .unpreconditioned => ⟪it.nextStep, it.nextStep⟫

/-- The iterate after the full step, with `z` as the new preconditioned residual. -/
def stepped (norm : DirectionNorm) (it : Iterate ℝ E) (z : E) : Iterate ℝ E :=
  { it with
    step := it.nextStep
    residual := it.nextResidual
    preconditioned := z
    rz := ⟪it.nextResidual, z⟫
    stepSq := it.nextStepSq norm }

def nextDirection (it next : Iterate ℝ E) : E :=
  next.preconditioned + (next.rz / it.rz) • it.direction

def nextCross (norm : DirectionNorm) (it next : Iterate ℝ E) : ℝ :=
  match norm with
  | .preconditioned => next.rz / it.rz * (it.cross + it.fullLength * it.directionSq)
  | .unpreconditioned => ⟪next.step, it.nextDirection next⟫

def nextDirectionSq (norm : DirectionNorm) (it next : Iterate ℝ E) : ℝ :=
  match norm with
  | .preconditioned => next.rz / it.rz * (it.rz + next.rz / it.rz * it.directionSq)
  | .unpreconditioned => ⟪it.nextDirection next, it.nextDirection next⟫

/-- The iterate after the turn to the next direction, with `w` as its product. -/
def turned (norm : DirectionNorm) (it next : Iterate ℝ E) (w : E) : Iterate ℝ E :=
  { next with
    direction := it.nextDirection next
    product := w
    curvature := ⟪it.nextDirection next, w⟫
    cross := it.nextCross norm next
    directionSq := it.nextDirectionSq norm next }

end Iterate

structure Subproblem (E : Type) where
  rhs : E
  radius : ℝ
  norm : DirectionNorm
  cap : ℕ
  /-- The products that the operator may answer. -/
  Acts : E → E → Prop
  /-- The preconditioned residuals that the preconditioner may answer. -/
  Preconditions : E → E → Prop
  /-- The preconditioned right-hand sides that it may answer at first. -/
  Opens : E → Prop
  opens_le : ∀ z, Opens z → Preconditions rhs z

namespace Subproblem

open Iterate

variable (Q : Subproblem E)

def Inside (it : Iterate ℝ E) : Prop := 0 < Q.radius → it.fullSq < Q.radius * Q.radius

/-- After `k` full steps a pass begins at the iterate, with the given objective. -/
inductive Reaches : ℕ → Iterate ℝ E → ℝ → Prop where
  | first {z w : E} (hz : Q.Opens z) (hw : Q.Acts z w) (nonneg : 0 ≤ ⟪Q.rhs, z⟫)
      (curved : 0 < ⟪z, w⟫) : Reaches 0 (opening Q.norm Q.rhs z w) 0
  | next {k : ℕ} {it : Iterate ℝ E} {q : ℝ} {z w : E} (pass : Reaches k it q)
      (inside : Q.Inside it) (hz : Q.Preconditions it.nextResidual z) (prev : it.rz ≠ 0)
      (pos : 0 < (it.stepped Q.norm z).rz) (below : k + 1 < Q.cap)
      (hw : Q.Acts (it.nextDirection (it.stepped Q.norm z)) w)
      (curved : 0 < (it.turned Q.norm (it.stepped Q.norm z) w).curvature) :
      Reaches (k + 1) (it.turned Q.norm (it.stepped Q.norm z) w)
        (q - 1 / 2 * it.fullLength * it.rz)

def gradientLength : ℝ :=
  if ⟪Q.rhs, Q.rhs⟫ ≤ Q.radius * Q.radius then 1
  else √(Q.radius * Q.radius / ⟪Q.rhs, Q.rhs⟫)

def gradientNorm : ℝ :=
  if ⟪Q.rhs, Q.rhs⟫ ≤ Q.radius * Q.radius then √⟪Q.rhs, Q.rhs⟫ else Q.radius

/-- Where falling back to the gradient leads after `i` iterations. -/
inductive FallsBack (i : ℕ) : E → Figures ℝ → Prop where
  | stays (unconstrained : Q.radius = 0) : FallsBack i 0 ⟨0, 0, i⟩
  | falls {w : E} (constrained : 0 < Q.radius) (hw : Q.Acts (Q.gradientLength • Q.rhs) w) :
      FallsBack i (Q.gradientLength • Q.rhs)
        ⟨Q.gradientNorm, -⟪Q.gradientLength • Q.rhs, Q.rhs - (1 / 2 : ℝ) • w⟫, i + 1⟩

/-- Why a solve stops after its full step number `k + 1`, and after how many iterations. -/
inductive Stops (k : ℕ) (it next : Iterate ℝ E) : Reason → ℕ → Prop where
  | indefinite (neg : next.rz < 0) : Stops k it next .indefinitePreconditioner (k + 1)
  | converged (nonneg : 0 ≤ next.rz) (why : Success) : Stops k it next (.converged why) (k + 1)
  | diverged (nonneg : 0 ≤ next.rz) (why : Divergence) : Stops k it next (.diverged why) (k + 1)
  | breakdown (nonneg : 0 ≤ next.rz) (zero : it.rz = 0 ∨ next.rz = 0) :
      Stops k it next .breakdown (k + 1)
  | limit (prev : it.rz ≠ 0) (pos : 0 < next.rz) (reached : Q.cap ≤ k + 1) :
      Stops k it next .iterationLimit (k + 1)
  | curvature {w : E} (prev : it.rz ≠ 0) (pos : 0 < next.rz) (below : k + 1 < Q.cap)
      (hw : Q.Acts (it.nextDirection next) w) (flat : ⟪it.nextDirection next, w⟫ ≤ 0) :
      Stops k it next .negativeCurvature (k + 2)

variable {Q} in
theorem Stops.ne_constrainedStep {k i : ℕ} {it next : Iterate ℝ E} {reason : Reason}
    (h : Q.Stops k it next reason i) : reason ≠ .constrainedStep := by
  cases h <;> exact Reason.noConfusion

/-- The ways in which a solve can end after `k` full steps, with the step and the figures that it
reports. -/
inductive Ends : ℕ → Reason → E → Figures ℝ → Prop where
  | indefinite {z x : E} {f : Figures ℝ} (hz : Q.Opens z) (neg : ⟪Q.rhs, z⟫ < 0)
      (falls : Q.FallsBack 0 x f) : Ends 0 .indefinitePreconditioner x f
  | leaves {z w : E} (hz : Q.Opens z) (nonneg : 0 ≤ ⟪Q.rhs, z⟫) (hw : Q.Acts z w)
      (flat : ⟪z, w⟫ ≤ 0) (constrained : 0 < Q.radius)
      (long : 0 < (opening Q.norm Q.rhs z w).directionSq) {τ : ℝ}
      (length : τ = √(Q.radius * Q.radius / (opening Q.norm Q.rhs z w).directionSq)) :
      Ends 0 .negativeCurvature (τ • z)
        ⟨Q.radius, (opening Q.norm Q.rhs z w).changeAlong τ, 1⟩
  | fallsBack {z w x : E} {f : Figures ℝ} (hz : Q.Opens z)
      (nonneg : 0 ≤ ⟪Q.rhs, z⟫) (hw : Q.Acts z w) (flat : ⟪z, w⟫ ≤ 0)
      (short : 0 < Q.radius → (opening Q.norm Q.rhs z w).directionSq ≤ 0)
      (falls : Q.FallsBack 1 x f) : Ends 0 .negativeCurvature x f
  | boundary {k : ℕ} {it : Iterate ℝ E} {q τ : ℝ} (pass : Q.Reaches k it q)
      (constrained : 0 < Q.radius) (crosses : Q.radius * Q.radius ≤ it.fullSq)
      (length : τ = it.boundaryLength Q.radius) :
      Ends k .constrainedStep (it.step + τ • it.direction)
        ⟨Q.radius, q + it.changeAlong τ, k + 1⟩
  | inside {k i : ℕ} {it : Iterate ℝ E} {q : ℝ} {z : E} {reason : Reason}
      (pass : Q.Reaches k it q) (inside : Q.Inside it)
      (hz : Q.Preconditions it.nextResidual z)
      (stops : Q.Stops k it (it.stepped Q.norm z) reason i) :
      Ends (k + 1) reason it.nextStep
        ⟨√(it.nextStepSq Q.norm), q - 1 / 2 * it.fullLength * it.rz, i⟩

end Subproblem

end

end TrustRegion
