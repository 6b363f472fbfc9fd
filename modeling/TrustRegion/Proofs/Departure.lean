import TrustRegion.Proofs.Composition

/-! The first phase in two parts: what it finds out about the first direction, which has nothing to
do with the radius, and what it does about that. -/
namespace TrustRegion

variable {T V S H P C : Type} [Scalar T]

open RunM

/-- What the first phase finds out about the first direction: the direction, its product under the
operator and its curvature. -/
structure Probe (T V : Type) where
  direction : V
  product : V
  curvature : T

section Phases

variable [VectorSpace T V S]

/-- The first phase up to the curvature of the first direction. -/
def probe [ActsOn V H] [ConvergenceTest T C] (s : Settings T) (b : Start T V) :
    RunM T S H P C (Probe T V) := do
  let norm ← residualNorm s b.residual b.preconditioned b.rz (some (Scalar.sqrt b.rr))
  let verdict ← judge 0 norm
  note (.initialResidual norm verdict)
  let direction ← copy b.preconditioned b.zero
  let product ← operate direction b.zero
  countIteration
  let curvature ← dot direction product
  return ⟨direction, product, curvature⟩

def measure (s : Settings T) (b : Start T V) (direction : V) : RunM T S H P C T :=
  match s.directionNorm with
  | .preconditioned => pure b.rz
  | .unpreconditioned => dot direction direction

/-- The iterate that the first phase opens with. -/
def Start.iterate (b : Start T V) (p : Probe T V) (directionSq : T) : Iterate T V :=
  { step := b.zero, residual := b.residual, preconditioned := b.preconditioned
    direction := p.direction, product := p.product, rz := b.rz, curvature := p.curvature
    stepSq := 0, cross := 0, directionSq }

/-- What the first phase makes of a probe. -/
def depart [ActsOn V H] (s : Settings T) (rhs : V) (b : Start T V) (p : Probe T V) :
    RunM T S H P C (Phase V (Iterate T V)) := do
  if !Scalar.isFinite p.curvature then
    note (.badOperator p.curvature)
    return .stopped .badOperator (← gradientStep s rhs b.rr b.zero p.product)
  else
    let directionSq ← measure s b p.direction
    if p.curvature ≤ 0 then
      note (.negativeCurvature p.curvature)
      return .stopped .negativeCurvature (← leave s rhs b.rr (b.iterate p directionSq))
    else return .going (b.iterate p directionSq)

variable {s s' : Settings T} {rhs : V}

theorem first_eq [ActsOn V H] [ConvergenceTest T C] (b : Start T V) :
    (first s rhs b : RunM T S H P C (Phase V (Iterate T V))) = probe s b >>= depart s rhs b := by
  unfold first probe depart measure
  simp only [bind_assoc, pure_bind]
  cases s.directionNorm <;> rfl

omit [Scalar T] in
theorem aloof_measure {b : Start T V} {direction : V} :
    (measure s b direction : RunM T S H P C T).Aloof := by
  unfold measure
  cases s.directionNorm with
  | preconditioned => exact .pure _
  | unpreconditioned => exact .dot _ _

theorem silent_depart [ActsOn V H] [ActsOn V P] {b : Start T V} {p : Probe T V} :
    (depart s rhs b p : RunM T S H P C (Phase V (Iterate T V))).Silent := by
  unfold depart
  split
  · exact .bind (.note _) fun _ => .bind silent_gradientStep fun _ => .pure _
  · refine .bind aloof_measure.silent fun _ => ?_
    split
    · exact .bind (.note _) fun _ => .bind silent_leave fun _ => .pure _
    · exact .pure _

end Phases

section Solve

variable [VectorSpace T V S] [ActsOn V H] {s : Settings T} {rhs : V} {b : Start T V}
  {p : Probe T V} {directionSq : T} {run run' : Run T S H P C}

theorem depart_of_flat (finite : Scalar.isFinite p.curvature = true) (flat : p.curvature ≤ 0)
    (measures : measure s b p.direction run = .ok directionSq run')
    (constrained : s.isConstrained = true) (long : directionSq > 0) :
    depart s rhs b p run = (do
      note (.negativeCurvature p.curvature)
      return .stopped .negativeCurvature (← boundaryStep s (Scalar.sqrt (s.radiusSq / directionSq))
        p.curvature b.rz p.direction b.zero) : RunM T S H P C _) run' := by
  have hlong : (b.iterate p directionSq).directionSq > 0 := long
  rw [depart, if_neg (by simp [finite]), bind_of_ok measures, if_pos flat, leave,
    if_pos constrained, if_pos hlong]
  rfl

variable [ActsOn V P] [ConvergenceTest T C]

/-- A solve that begins as `run₀` falls back to the gradient: for the first answer of the
preconditioner, for that of the operator, or for a first direction that leads to no boundary. -/
inductive TakesGradient (s : Settings T) (rhs : V) (run₀ : Run T S H P C) : Prop where
  | preconditioner {b : Start T V} {run : Run T S H P C} (starts : start rhs run₀ = .ok b run)
      (refused : Scalar.isFinite b.rz = false ∨ b.rz < 0)
  | operator {b : Start T V} {p : Probe T V} {run run' : Run T S H P C}
      (starts : start rhs run₀ = .ok b run) (finite : Scalar.isFinite b.rz = true)
      (nonneg : ¬ b.rz < 0) (probes : probe s b run = .ok p run')
      (refused : Scalar.isFinite p.curvature = false)
  | direction {b : Start T V} {p : Probe T V} {directionSq : T} {run run' run'' : Run T S H P C}
      (starts : start rhs run₀ = .ok b run) (finite : Scalar.isFinite b.rz = true)
      (nonneg : ¬ b.rz < 0) (probes : probe s b run = .ok p run')
      (curved : Scalar.isFinite p.curvature = true)
      (measures : measure s b p.direction run' = .ok directionSq run'') (flat : p.curvature ≤ 0)
      (constrained : s.isConstrained = true) (short : ¬ directionSq > 0)

/-- A solve with a first direction of no positive curvature that has a norm ends on the boundary. -/
theorem iterate_of_flat {run₀ run'' : Run T S H P C} (m : Nat) (starts : start rhs run₀ = .ok b run)
    (finite : Scalar.isFinite b.rz = true) (nonneg : ¬ b.rz < 0)
    (probes : probe s b run = .ok p run')
    (curved : Scalar.isFinite p.curvature = true)
    (measures : measure s b p.direction run' = .ok directionSq run'') (flat : p.curvature ≤ 0)
    (constrained : s.isConstrained = true) (long : directionSq > 0) :
    iterate s rhs m run₀ =
      (do return ⟨.negativeCurvature, ← boundaryStep s (Scalar.sqrt (s.radiusSq / directionSq))
        p.curvature b.rz p.direction b.zero⟩ : RunM T S H P C (Stop V))
        (run''.log (.noted (.negativeCurvature p.curvature))) := by
  have hlong : (b.iterate p directionSq).directionSq > 0 := long
  rw [iterate, bind_of_ok (dimension_apply _ _), bind_of_ok starts, if_neg (by simp [finite]),
    if_neg nonneg, first_eq, bind_assoc, bind_of_ok probes, depart, if_neg (by simp [curved]),
    bind_assoc, bind_of_ok measures, if_pos flat, bind_assoc, bind_of_ok (note_apply _ _), leave,
    if_pos constrained, if_pos hlong, bind_assoc]
  rfl

theorem long_of_not_takesGradient {run₀ : Run T S H P C} (direct : ¬ TakesGradient s rhs run₀)
    (starts : start rhs run₀ = .ok b run) (finite : Scalar.isFinite b.rz = true)
    (nonneg : ¬ b.rz < 0) (constrained : s.isConstrained = true) (p : Probe T V)
    (mid : Run T S H P C) (directionSq : T) (run' : Run T S H P C)
    (probes : probe s b run = .ok p mid)
    (measures : measure s b p.direction mid = .ok directionSq run')
    (curved : Scalar.isFinite p.curvature = true) (flat : p.curvature ≤ 0) : directionSq > 0 := by
  by_cases long : directionSq > 0
  · exact long
  · exact absurd
      (.direction starts finite nonneg probes curved measures flat constrained long) direct

/-- A solve that falls back to the gradient comes to what the gradient step comes to. -/
theorem TakesGradient.iterate_eq {run₀ : Run T S H P C} (h : TakesGradient s rhs run₀) (m : Nat) :
    ∃ (b : Start T V) (run₁ : Run T S H P C) (reason : Reason) (scratch : V)
      (run : Run T S H P C), start rhs run₀ = .ok b run₁ ∧
      iterate s rhs m run₀ =
        (do return ⟨reason, ← gradientStep s rhs b.rr b.zero scratch⟩ : RunM T S H P C (Stop V))
          run := by
  cases h with
  | @preconditioner b run starts refused =>
    by_cases finite : Scalar.isFinite b.rz = true
    · have neg : b.rz < 0 := refused.resolve_left (by simp [finite])
      refine ⟨b, run, .indefinitePreconditioner, b.zero,
        run.log (.noted (.indefinitePreconditioner b.rz)), starts, ?_⟩
      rw [iterate, bind_of_ok (dimension_apply _ _), bind_of_ok starts, if_neg (by simp [finite]),
        if_pos neg, bind_of_ok (note_apply _ _)]
    · refine ⟨b, run, .badPreconditioner, b.zero,
        run.log (.noted (.badPreconditioner b.rz)), starts, ?_⟩
      rw [iterate, bind_of_ok (dimension_apply _ _), bind_of_ok starts, if_pos (by simp [finite]),
        bind_of_ok (note_apply _ _)]
  | @operator b p run run' starts finite nonneg probes refused =>
    refine ⟨b, run, .badOperator, p.product, run'.log (.noted (.badOperator p.curvature)), starts,
      ?_⟩
    rw [iterate, bind_of_ok (dimension_apply _ _), bind_of_ok starts, if_neg (by simp [finite]),
      if_neg nonneg, first_eq, bind_assoc, bind_of_ok probes, depart, if_pos (by simp [refused]),
      bind_assoc, bind_of_ok (note_apply _ _), bind_assoc]
    rfl
  | @direction b p directionSq run run' run'' starts finite nonneg probes curved measures flat
      constrained short =>
    have hshort : ¬ (b.iterate p directionSq).directionSq > 0 := short
    refine ⟨b, run, .negativeCurvature, p.product,
      run''.log (.noted (.negativeCurvature p.curvature)), starts, ?_⟩
    rw [iterate, bind_of_ok (dimension_apply _ _), bind_of_ok starts, if_neg (by simp [finite]),
      if_neg nonneg, first_eq, bind_assoc, bind_of_ok probes, depart, if_neg (by simp [curved]),
      bind_assoc, bind_of_ok measures, if_pos flat, bind_assoc, bind_of_ok (note_apply _ _), leave,
      if_pos constrained, if_neg hshort, bind_assoc]
    rfl

end Solve

end TrustRegion
