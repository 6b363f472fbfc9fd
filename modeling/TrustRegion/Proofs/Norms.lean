import TrustRegion.Proofs.Departure
import TrustRegion.Proofs.Observers
import TrustRegion.Proofs.Passes
import TrustRegion.Proofs.Steady

/-! Solves that differ in their norms: what each of them tracks, and that they go the same way as
long as what is tracked decides nothing or is the same for both. -/
namespace TrustRegion

variable {T V S H P C γ : Type} [Scalar T]

open RunM

/-- Iterates that are the same but for what is tracked of the norms. -/
def Iterate.Agrees (it it' : Iterate T V) : Prop :=
  ∃ stepSq cross directionSq, it' = { it with stepSq, cross, directionSq }

def Phase.Agrees : Phase V (Iterate T V) → Phase V (Iterate T V) → Prop
  | .stopped reason step, .stopped reason' step' => reason = reason' ∧ step = step'
  | .going it, .going it' => it.Agrees it'
  | _, _ => False

omit [Scalar T] in
theorem Phase.Agrees.cases {phase phase' : Phase V (Iterate T V)} (h : phase.Agrees phase') :
    (∃ reason step, phase = .stopped reason step ∧ phase' = .stopped reason step) ∨
      ∃ it it', phase = .going it ∧ phase' = .going it' ∧ it.Agrees it' := by
  cases phase with
  | stopped reason step =>
    cases phase' with
    | stopped reason' step' =>
      obtain ⟨rfl, rfl⟩ := h
      exact .inl ⟨reason, step, rfl, rfl⟩
    | going it' => exact h.elim
  | going it =>
    cases phase' with
    | stopped reason' step' => exact h.elim
    | going it' => exact .inr ⟨it, it', rfl, rfl, h⟩

/-- Settings with the radius of others, whose residual norm is theirs or not to be told from it. -/
structure Settings.Variant (seen : T → γ) (s s' : Settings T) : Prop where
  radius : s'.radius = s.radius
  residual : s'.residualNorm = s.residualNorm ∨ ∀ x x', seen x = seen x'

section Tracking

variable [VectorSpace T V S]

/-- What is tracked of the squared norm of the step that a full step leads to. -/
def trackStep (s : Settings T) (it : Iterate T V) (step : V) : RunM T S H P C T :=
  match s.directionNorm with
  | .preconditioned => pure it.nextSq
  | .unpreconditioned => dot step step

/-- What is tracked of the products of a new direction with the step and with itself. -/
def trackTurn (s : Settings T) (it next : Iterate T V) (direction : V) : RunM T S H P C (T × T) :=
  match s.directionNorm with
  | .preconditioned =>
    pure (it.beta next * (it.cross + it.alpha * it.directionSq),
      it.beta next * (it.rz + it.beta next * it.directionSq))
  | .unpreconditioned => do
    let cross ← dot next.step direction
    let directionSq ← dot direction direction
    pure (cross, directionSq)

variable {s s' : Settings T} {it it' next : Iterate T V}

theorem advance_eq [ActsOn V P] : (advance s it : RunM T S H P C (Iterate T V)) = do
    let step ← axpy it.alpha it.direction it.step
    let residual ← axpy (-it.alpha) it.product it.residual
    let preconditioned ← precondition residual it.preconditioned
    let stepSq ← trackStep s it step
    setStepNorm (Scalar.sqrt stepSq)
    mapObjective (· - Scalar.half * it.alpha * it.rz)
    let rz ← dot residual preconditioned
    return { it with step, residual, preconditioned, stepSq, rz } := by
  unfold advance trackStep
  cases s.directionNorm <;> rfl

theorem turn_eq [ActsOn V H] : (turn s it next : RunM T S H P C (Phase V (Iterate T V))) = do
    let direction ← aypx (it.beta next) next.preconditioned it.direction
    let (cross, directionSq) ← trackTurn s it next direction
    let product ← operate direction it.product
    let curvature ← dot direction product
    countIteration
    if !Scalar.isFinite curvature then
      note (.badOperator curvature)
      return .stopped .badOperator next.step
    else if curvature ≤ 0 then
      note (.negativeCurvature curvature)
      return .stopped .negativeCurvature next.step
    else return .going { next with direction, product, curvature, cross, directionSq } := by
  unfold turn trackTurn
  cases s.directionNorm <;> simp only [bind_assoc, pure_bind]

end Tracking

section Radius

variable [VectorSpace T V S] {s s' : Settings T} {it : Iterate T V}

theorem gradientStep_variant [ActsOn V H] (hr : s'.radius = s.radius) (rhs : V) (rr : T)
    (step scratch : V) :
    (gradientStep s' rhs rr step scratch : RunM T S H P C V) =
      gradientStep s rhs rr step scratch := by
  unfold gradientStep Settings.radiusSq
  rw [hr]

theorem leave_variant [ActsOn V H] (hr : s'.radius = s.radius) (rhs : V) (rr : T) :
    (leave s' rhs rr it : RunM T S H P C V) = leave s rhs rr it := by
  unfold leave Settings.isConstrained boundaryStep gradientStep Settings.radiusSq
  rw [hr]

theorem truncate_variant (hr : s'.radius = s.radius) :
    (truncate s' it : RunM T S H P C V) = truncate s it := by
  unfold truncate Iterate.boundary boundaryStep Settings.radiusSq
  rw [hr]

end Radius

section Phases

variable [VectorSpace T V S] {ops : Operations T V} {K : S → Prop} {J : C → C → Prop}
  {seen : T → γ} {s s' : Settings T} {it it' next next' : Iterate T V} {b : Start T V}
  {run run' : Run T S H P C}

omit [Scalar T] in
/-- Whatever the norm, tracking it is of no consequence by itself. -/
theorem meets_measure (governs : ops.Govern K) (measures : ops.Measures) (hK : K run.space)
    (direction : V) :
    (measure s b direction : RunM T S H P C T).Meets run fun _ mid => run.Alike K Eq id mid := by
  unfold measure
  cases s.directionNorm with
  | preconditioned => exact meets_pure (.refl hK rfl)
  | unpreconditioned =>
    obtain ⟨t, ht⟩ := measures.square direction
    exact meets_dot governs ht (.refl hK rfl)

theorem meets_trackStep (governs : ops.Govern K) (measures : ops.Measures) (hK : K run.space)
    (step : V) :
    (trackStep s it step : RunM T S H P C T).Meets run fun _ mid => run.Alike K Eq id mid := by
  unfold trackStep
  cases s.directionNorm with
  | preconditioned => exact meets_pure (.refl hK rfl)
  | unpreconditioned =>
    obtain ⟨t, ht⟩ := measures.square step
    exact meets_dot governs ht (.refl hK rfl)

theorem meets_trackTurn (governs : ops.Govern K) (measures : ops.Measures) (hK : K run.space)
    {direction : V} (product : ∃ t, ops.dot next.step direction = .ok t) :
    (trackTurn s it next direction : RunM T S H P C (T × T)).Meets run
      fun _ mid => run.Alike K Eq id mid := by
  unfold trackTurn
  cases s.directionNorm with
  | preconditioned => exact meets_pure (.refl hK rfl)
  | unpreconditioned =>
    obtain ⟨t, ht⟩ := product
    obtain ⟨t', ht'⟩ := measures.square direction
    exact (meets_dot governs ht (.refl hK rfl)).bind fun _ mid hmid =>
      (meets_dot governs ht' hmid).bind fun _ mid' hmid' => meets_pure hmid'

theorem meets_residualNorm (governs : ops.Govern K) (measures : ops.Measures) (hK : K run.space)
    (r z : V) (rz : T) (known? : Option T) :
    (residualNorm s r z rz known? : RunM T S H P C T).Meets run
      fun _ mid => run.Alike K Eq id mid := by
  obtain ⟨x, hx⟩ := measures.norm r
  obtain ⟨y, hy⟩ := measures.norm z
  unfold residualNorm
  split
  · exact meets_norm governs hy (.refl hK rfl)
  · split
    · exact meets_pure (.refl hK rfl)
    · exact meets_norm governs hx (.refl hK rfl)
  · exact meets_pure (.refl hK rfl)

variable [ActsOn V H] [ActsOn V P]

theorem joined_residualNorm (governs : ops.Govern K) (measures : ops.Measures)
    (variant : s.Variant seen s') (h : run.Alike K J seen run') (r z : V) (rz : T)
    (known? : Option T) :
    Run.Joined (Run.Alike K J seen) (fun x x' => seen x = seen x')
      (residualNorm s r z rz known? run) (residualNorm s' r z rz known? run') := by
  rcases variant.residual with hsame | hblind
  · have heq : (residualNorm s' r z rz known? : RunM T S H P C T) =
        residualNorm s r z rz known? := by
      unfold residualNorm
      rw [hsame]
    rw [heq]
    exact (aloof_residualNorm.silent.keeps governs h).imp fun x x' hx => congrArg seen hx
  · exact (joined_of_meets h (meets_residualNorm governs measures h.space r z rz known?)
      (meets_residualNorm governs measures h.space' r z rz known?)).imp fun x x' _ => hblind x x'

/-- Tests in the relation answer the same to questions that cannot be told apart. -/
def Overlooks [ConvergenceTest T C] (J : C → C → Prop) (seen : T → γ) : Prop :=
  ∀ c c', J c c' → ∀ (i : Nat) (x x' : T), seen x = seen x' →
    (ConvergenceTest.evaluate c i x).1 = (ConvergenceTest.evaluate c' i x').1 ∧
      J (ConvergenceTest.evaluate c i x).2 (ConvergenceTest.evaluate c' i x').2

omit [Scalar T] in
theorem overlooks_eq [ConvergenceTest T C] : Overlooks (Eq : C → C → Prop) (id : T → T) := by
  intro c c' same i x x' hx
  obtain rfl := same
  obtain rfl : x = x' := hx
  exact ⟨rfl, rfl⟩

omit [Scalar T] [VectorSpace T V S] [ActsOn V H] [ActsOn V P] in
theorem joined_judge [ConvergenceTest T C] (blind : Overlooks J seen)
    (h : run.Alike K J seen run') {x x' : T} (hx : seen x = seen x') (i : Nat) :
    Run.Joined (Run.Alike K J seen) Eq (judge i x run) (judge i x' run') := by
  obtain ⟨hverdict, htest⟩ := blind _ _ h.test i x x' hx
  rw [judge_apply, judge_apply]
  refine ⟨hverdict, { h with test := htest, verdicts := ?_ }⟩
  have hseen : Event.seenThrough seen (i, x, (ConvergenceTest.evaluate run.test i x).1) =
      Event.seenThrough seen (i, x', (ConvergenceTest.evaluate run'.test i x').1) := by
    rw [Event.seenThrough, Event.seenThrough, hx, hverdict]
  show Event.seenThrough seen _ :: run.verdicts.map _ =
    Event.seenThrough seen _ :: run'.verdicts.map _
  rw [hseen, h.verdicts]

theorem joined_probe [ConvergenceTest T C] (governs : ops.Govern K) (measures : ops.Measures)
    (blind : Overlooks J seen) (variant : s.Variant seen s') (h : run.Alike K J seen run') :
    Run.Joined (Run.Alike K J seen) Eq (probe s b run) (probe s' b run') := by
  unfold probe
  refine joined_bind (joined_residualNorm governs measures variant h _ _ _ _)
    fun x x' mid mid' _ _ hx hmid => ?_
  refine joined_bind (joined_judge blind hmid hx 0) fun v v' mid mid' _ _ hv hmid => ?_
  -- The notes show the norms; what follows them does not depend on the norms.
  rw [bind_of_ok (note_apply _ _), bind_of_ok (note_apply _ _)]
  exact Silent.keeps governs (.bind (.copy _ _) fun _ => .bind (.operate _ _) fun _ =>
    .bind .countIteration fun _ => .bind (.dot _ _) fun _ => .pure _) (hmid.log rfl rfl)

omit [VectorSpace T V S] [ActsOn V H] [ActsOn V P] [Scalar T] in
theorem Iterate.Agrees.refl (it : Iterate T V) : it.Agrees it :=
  ⟨it.stepSq, it.cross, it.directionSq, rfl⟩

omit [VectorSpace T V S] [ActsOn V H] [ActsOn V P] [Scalar T] in
theorem Phase.Agrees.refl (phase : Phase V (Iterate T V)) : phase.Agrees phase := by
  cases phase with
  | stopped reason step => exact ⟨rfl, rfl⟩
  | going it => exact Iterate.Agrees.refl it

omit [ActsOn V P] in
/-- Leaving from the start depends on the norm only where there is a boundary to go to. -/
theorem leave_eq_of_variant (hr : s'.radius = s.radius) (rhs : V) (p : Probe T V) {d d' : T}
    (same : s.isConstrained = true → d' = d) :
    (leave s' rhs b.rr (b.iterate p d') : RunM T S H P C V) =
      leave s rhs b.rr (b.iterate p d) := by
  rw [leave_variant hr]
  by_cases constrained : s.isConstrained = true
  · rw [same constrained]
  · unfold leave
    rw [if_neg constrained, if_neg constrained]
    rfl

theorem joined_depart (governs : ops.Govern K) (measures : ops.Measures)
    (hr : s'.radius = s.radius) (rhs : V) {p : Probe T V} (h : run.Alike K J seen run')
    (same : s.isConstrained = true → ∀ d d' mid mid', measure s b p.direction run = .ok d mid →
      measure s' b p.direction run' = .ok d' mid' → d' = d) :
    Run.Joined (Run.Alike K J seen) Phase.Agrees
      (depart s rhs b p run) (depart s' rhs b p run') := by
  unfold depart
  rw [gradientStep_variant hr]
  by_cases infinite : (!Scalar.isFinite p.curvature) = true
  · rw [if_pos infinite, if_pos infinite]
    exact (Silent.keeps governs (.bind (.note _) fun _ => .bind silent_gradientStep fun _ =>
      .pure _) h).imp fun _ _ heq => heq ▸ .refl _
  · rw [if_neg infinite, if_neg infinite]
    refine joined_bind (joined_of_meets h (meets_measure governs measures h.space p.direction)
      (meets_measure governs measures h.space' p.direction)) fun d d' mid mid' hd hd' _ hmid => ?_
    by_cases flat : p.curvature ≤ 0
    · rw [if_pos flat, if_pos flat,
        leave_eq_of_variant hr rhs p fun constrained => same constrained d d' mid mid' hd hd']
      exact (Silent.keeps governs (.bind (.note _) fun _ => .bind silent_leave fun _ =>
        .pure _) hmid).imp fun _ _ heq => heq ▸ .refl _
    · rw [if_neg flat, if_neg flat]
      exact ⟨⟨_, _, _, rfl⟩, hmid⟩

/-- The full step is the same, whatever is tracked of its norm. -/
theorem joined_advance (governs : ops.Govern K) (measures : ops.Measures)
    (h : run.Alike K J seen run') (agrees : it.Agrees it') :
    Run.Joined (Run.Alike K J seen) Iterate.Agrees (advance s it run) (advance s' it' run') := by
  obtain ⟨stepSq, cross, directionSq, rfl⟩ := agrees
  rw [advance_eq, advance_eq]
  refine ((Silent.axpy _ _ _).keeps governs).joined_bind h fun step _ _ _ _ h => ?_
  refine ((Silent.axpy _ _ _).keeps governs).joined_bind h fun residual _ _ _ _ h => ?_
  refine ((Silent.precondition _ _).keeps governs).joined_bind h fun z _ _ _ _ h => ?_
  refine joined_bind (joined_of_meets h (meets_trackStep governs measures h.space step)
    (meets_trackStep governs measures h.space' step)) fun d d' mid mid' _ _ _ h => ?_
  rw [bind_of_ok (setStepNorm_apply _ _), bind_of_ok (setStepNorm_apply _ _)]
  refine ((Silent.mapObjective _).keeps governs).joined_bind (h.withStepNorm _ _)
    fun _ _ _ _ _ h => ?_
  refine ((Silent.dot _ _).keeps governs).joined_bind h fun rz _ _ _ _ h => ?_
  exact ⟨⟨_, _, _, rfl⟩, h⟩

omit [ActsOn V H] [ActsOn V P] in
theorem review_eq_of_agrees [ConvergenceTest T C] (agrees : it.Agrees it')
    (agrees' : next.Agrees next') :
    (review s it' next' : RunM T S H P C (Option Reason)) = review s it next := by
  obtain ⟨_, _, _, rfl⟩ := agrees
  obtain ⟨_, _, _, rfl⟩ := agrees'
  rfl

theorem joined_review [ConvergenceTest T C] (governs : ops.Govern K) (measures : ops.Measures)
    (blind : Overlooks J seen) (variant : s.Variant seen s') (h : run.Alike K J seen run')
    (agrees : it.Agrees it') (agrees' : next.Agrees next') :
    Run.Joined (Run.Alike K J seen) Eq (review s it next run) (review s' it' next' run') := by
  rw [review_eq_of_agrees agrees agrees']
  unfold review
  by_cases neg : next.rz < 0
  · rw [if_pos neg, if_pos neg]
    exact Silent.keeps governs (.bind (.note _) fun _ => .pure _) h
  · rw [if_neg neg, if_neg neg]
    refine joined_bind (joined_residualNorm governs measures variant h _ _ _ _)
      fun x x' _ _ _ _ hx h => ?_
    refine (Silent.iterations.keeps governs).joined_bind h fun i _ _ _ _ h => ?_
    refine joined_bind (joined_judge blind h hx i) fun verdict verdict' _ _ _ _ hv h => ?_
    subst hv
    cases verdict with
    | converged why => exact ⟨rfl, h.log rfl rfl⟩
    | diverged why => exact ⟨rfl, h.log rfl rfl⟩
    | iterating =>
      refine Silent.keeps governs (.bind .iterations fun _ => .bind (.note _) fun _ => ?_) h
      split
      · exact .bind (.note _) fun _ => .pure _
      · exact .pure _

omit [ActsOn V H] in
theorem advance_written (governs : ops.Govern K) (hK : K run.space)
    (h : advance s it run = .ok next run') :
    ops.axpy it.alpha it.direction it.step = { content := next.step } := by
  rw [advance_eq] at h
  obtain ⟨step, run₁, steps, h⟩ := bind_eq_ok.mp h
  have hstep : next.step = step := by
    simp only [bind_eq_ok] at h
    obtain ⟨residual, _, -, z, _, -, stepSq, _, -, _, _, -, _, _, -, rz, _, -, ⟨⟩⟩ := h
    rfl
  obtain ⟨space, -, heq⟩ := governs.axpy _ hK it.alpha it.direction it.step
  simp only [axpy, heq] at steps
  rw [hstep]
  exact Run.written_of_ofWritten steps

theorem joined_turn (governs : ops.Govern K) (measures : ops.Measures)
    (h : run.Alike K J seen run') (agrees : it.Agrees it') (agrees' : next.Agrees next')
    (stepped : ops.axpy it.alpha it.direction it.step = { content := next.step }) :
    Run.Joined (Run.Alike K J seen) Phase.Agrees (turn s it next run) (turn s' it' next' run') := by
  obtain ⟨_, _, _, rfl⟩ := agrees
  obtain ⟨_, _, _, rfl⟩ := agrees'
  rw [turn_eq, turn_eq]
  have hspace := h.space
  refine ((Silent.aypx _ _ _).keeps governs).joined_bind h fun direction _ _ turns _ h => ?_
  have turned : ops.aypx (it.beta next) next.preconditioned it.direction =
      { content := direction } := by
    obtain ⟨space, -, heq⟩ := governs.aypx _ hspace (it.beta next) next.preconditioned it.direction
    simp only [aypx, heq] at turns
    exact Run.written_of_ofWritten turns
  have product : ∃ t, ops.dot next.step direction = .ok t := by
    have := measures.product it.alpha (it.beta next) it.direction it.step next.preconditioned
      (by rw [stepped]) (by rw [turned])
    rwa [stepped, turned] at this
  refine joined_bind (joined_of_meets h (meets_trackTurn governs measures h.space product)
    (meets_trackTurn governs measures h.space' product)) fun d d' _ _ _ _ _ h => ?_
  refine ((Silent.operate _ _).keeps governs).joined_bind h fun w _ _ _ _ h => ?_
  refine ((Silent.dot _ _).keeps governs).joined_bind h fun curvature _ _ _ _ h => ?_
  refine (Silent.countIteration.keeps governs).joined_bind h fun _ _ _ _ _ h => ?_
  by_cases infinite : (!Scalar.isFinite curvature) = true
  · rw [if_pos infinite, if_pos infinite]
    exact ⟨⟨rfl, rfl⟩, h.log rfl rfl⟩
  · rw [if_neg infinite, if_neg infinite]
    by_cases flat : curvature ≤ 0
    · rw [if_pos flat, if_pos flat]
      exact ⟨⟨rfl, rfl⟩, h.log rfl rfl⟩
    · rw [if_neg flat, if_neg flat]
      exact ⟨⟨_, _, _, rfl⟩, h⟩

end Phases

section Solve

variable [VectorSpace T V S] [ActsOn V H] [ActsOn V P] [ConvergenceTest T C]
  {s s' : Settings T} {rhs : V} {m : Nat} {run₀ : Run T S H P C}

/-- Two solves that begin as `run₀` track the same numbers wherever they have gone the same way. -/
structure Settings.Concur (s s' : Settings T) (rhs : V) (m : Nat) (run₀ : Run T S H P C) :
    Prop where
  opening : ∀ {b : Start T V} {p : Probe T V} {d d' : T} {run₁ run₂ run₂' run₃ run₃'},
    start rhs run₀ = .ok b run₁ → probe s b run₁ = .ok p run₂ → probe s' b run₁ = .ok p run₂' →
      measure s b p.direction run₂ = .ok d run₃ → measure s' b p.direction run₂' = .ok d' run₃' →
        d' = d
  pass : ∀ {k : Nat} {it it' : Iterate T V} {run run' : Run T S H P C},
    ReachesPass s rhs m run₀ k it run → ReachesPass s' rhs m run₀ k it' run' → it.Agrees it' →
      it' = it

variable {ops : Operations T V} {K : S → Prop} {J : C → C → Prop} {seen : T → γ}

omit [VectorSpace T V S] [ActsOn V H] [ActsOn V P] [ConvergenceTest T C] in
theorem crosses_iff_of_variant {it it' : Iterate T V} (hr : s'.radius = s.radius)
    (same : s.isConstrained = true → it' = it) : it'.Crosses s' ↔ it.Crosses s := by
  unfold Iterate.Crosses Settings.isConstrained Settings.radiusSq
  rw [hr]
  constructor
  · intro crosses
    rwa [← same crosses.1]
  · intro crosses
    rwa [same crosses.1]

/-- From passes that agree on, the solves stay together: what they track either decides nothing or
is the same. -/
theorem joined_passes (governs : ops.Govern K) (measures : ops.Measures) (blind : Overlooks J seen)
    (variant : s.Variant seen s') (concur : s.isConstrained = true → s.Concur s' rhs m run₀)
    (remaining : Nat) {k : Nat} {it it' : Iterate T V} {run run' : Run T S H P C}
    (pass : ReachesPass s rhs m run₀ k it run) (pass' : ReachesPass s' rhs m run₀ k it' run')
    (agrees : it.Agrees it') (h : run.Alike K J seen run')
    (left : remaining = iterationCap rhs m run₀ - (k + 1)) :
    Run.Joined (Run.Alike K J seen) Eq (passes s remaining it run)
      (passes s' remaining it' run') := by
  have entered : (run.enter it).Alike K J seen (run'.enter it') := h.log rfl rfl
  have same : s.isConstrained = true → it' = it := fun constrained =>
    (concur constrained).pass pass pass' agrees
  have hcrosses := crosses_iff_of_variant variant.radius same
  by_cases crosses : it.Crosses s
  · rw [passes_crossing _ crosses, passes_crossing _ (hcrosses.mpr crosses), same crosses.1,
      truncate_variant variant.radius]
    rw [same crosses.1] at entered
    exact Silent.keeps governs (.bind aloof_truncate.silent fun _ => .pure _) entered
  · have inside := mt hcrosses.mp crosses
    rw [passes_inside _ crosses, passes_inside _ inside]
    refine joined_bind (joined_advance governs measures entered agrees)
      fun next next' _ _ advances advances' agrees' h => ?_
    have stepped := advance_written governs entered.space advances
    have hstep : next'.step = next.step := by
      obtain ⟨_, _, _, rfl⟩ := agrees'
      rfl
    refine joined_bind (joined_review governs measures blind variant h agrees agrees')
      fun outcome outcome' _ _ reviews reviews' heq h => ?_
    subst heq
    cases outcome with
    | some reason => exact ⟨by rw [hstep], h⟩
    | none =>
      cases remaining with
      | zero =>
        refine (Silent.iterations.keeps governs).joined_bind h fun i _ _ _ _ h => ?_
        exact ⟨by rw [hstep], h.log rfl rfl⟩
      | succ remaining =>
        have below : k + 1 < iterationCap rhs m run₀ := by omega
        refine joined_bind (joined_turn governs measures h agrees agrees' stepped)
          fun phase phase' _ _ turns turns' hphase h => ?_
        obtain ⟨reason, step, rfl, rfl⟩ | ⟨next, next', rfl, rfl, agrees⟩ := hphase.cases
        · exact ⟨rfl, h⟩
        · exact joined_passes governs measures blind variant concur remaining
            (.next pass ⟨crosses, advances⟩ reviews below turns)
            (.next pass' ⟨inside, advances'⟩ reviews' below turns') agrees h (by omega)

theorem joined_iterate (governs : ops.Govern K) (measures : ops.Measures) (blind : Overlooks J seen)
    (variant : s.Variant seen s') (concur : s.isConstrained = true → s.Concur s' rhs m run₀)
    (hK : K run₀.space) (hJ : J run₀.test run₀.test) :
    Run.Joined (Run.Alike K J seen) Eq (iterate s rhs m run₀) (iterate s' rhs m run₀) := by
  unfold iterate
  rw [bind_of_ok (dimension_apply _ _), bind_of_ok (dimension_apply _ _)]
  have starting : (start rhs : RunM T S H P C (Start T V)).Keeps (Run.Alike K J seen) :=
    keeps_start (fun silent => silent.keeps governs) rhs
  refine starting.joined_bind (.refl hK hJ) fun b run₁ run₁' starts starts' h => ?_
  obtain rfl : run₁ = run₁' := by
    have := starts.symm.trans starts'
    cases this
    rfl
  rw [gradientStep_variant variant.radius]
  by_cases infinite : (!Scalar.isFinite b.rz) = true
  · rw [if_pos infinite, if_pos infinite]
    exact (silent_fallBack s rhs b _ _).keeps governs h
  · rw [if_neg infinite, if_neg infinite]
    by_cases neg : b.rz < 0
    · rw [if_pos neg, if_pos neg]
      exact (silent_fallBack s rhs b _ _).keeps governs h
    · rw [if_neg neg, if_neg neg]
      have opens : Run.Joined (Run.Alike K J seen) Phase.Agrees
          (first s rhs b run₁) (first s' rhs b run₁) := by
        rw [first_eq, first_eq]
        refine joined_bind (joined_probe governs measures blind variant h)
          fun p p' _ _ probes probes' heq h => ?_
        subst heq
        exact joined_depart governs measures variant.radius rhs h
          fun constrained d d' _ _ hd hd' =>
            (concur constrained).opening starts probes probes' hd hd'
      refine joined_bind opens fun phase phase' _ _ goes goes' hphase h => ?_
      have finite : Scalar.isFinite b.rz = true := by simpa using infinite
      obtain ⟨reason, step, rfl, rfl⟩ | ⟨it, it', rfl, rfl, agrees⟩ := hphase.cases
      · exact ⟨rfl, h⟩
      · exact joined_passes governs measures blind variant concur _
          (.first starts finite neg goes) (.first starts finite neg goes') agrees h rfl

theorem map_eq_map_of_ok {ε α β δ : Type} {x y : Except ε α} {f : α → β} {g : α → δ}
    (same : x.map f = y.map f) (h : ∀ a a', x = .ok a → y = .ok a' → f a = f a' → g a = g a') :
    x.map g = y.map g := by
  cases x with
  | error e =>
    cases y with
    | error e' => exact congrArg Except.error (Except.error.inj same)
    | ok a' => cases same
  | ok a =>
    cases y with
    | error e' => cases same
    | ok a' => exact congrArg Except.ok (h a a' rfl rfl (Except.ok.inj same))

def Solution.besideNorms (solution : Solution T V) : Solution T V :=
  { solution with residualNorm? := none, stepNorm := 0 }

def Solution.besideStepNorm (solution : Solution T V) : Solution T V :=
  { solution with stepNorm := 0 }

omit [VectorSpace T V S] [ActsOn V H] [ActsOn V P] [ConvergenceTest T C] in
theorem Solution.eq_of_besideStepNorm {solution solution' : Solution T V}
    (beside : solution'.besideStepNorm = solution.besideStepNorm)
    (norm : solution'.stepNorm = solution.stepNorm) : solution' = solution := by
  cases solution
  cases solution'
  simp_all [besideStepNorm]

namespace Solver

variable {solver solver' : Solver T} {cs : Collaborators S H P C}

/-- Solves by variants come to the same end after the same questions, as far as can be seen. -/
theorem solve_eq_of_variant (governs : ops.Govern K) (measures : ops.Measures)
    (blind : Overlooks J seen) (variant : solver.settings.Variant seen solver'.settings)
    (concur : solver.settings.isConstrained = true →
      solver.settings.Concur solver'.settings rhs m cs.begin)
    (hK : K cs.space) (hJ : J cs.test cs.test) :
    (solver'.solve cs rhs m).result.map Solution.besideNorms =
        (solver.solve cs rhs m).result.map Solution.besideNorms ∧
      (Event.evaluations (solver'.solve cs rhs m).events).map (Event.seenThrough seen) =
        (Event.evaluations (solver.solve cs rhs m).events).map (Event.seenThrough seen) := by
  have hvalidate : solver'.settings.validate = solver.settings.validate := by
    rw [Settings.validate, Settings.validate, variant.radius]
  cases hv : solver.settings.validate with
  | error failure =>
    unfold solve
    rw [hvalidate, hv]
    exact ⟨rfl, rfl⟩
  | ok =>
    have hv' := hvalidate.trans hv
    have joined := joined_iterate governs measures blind variant concur hK hJ
    rw [evaluations_solve hv, evaluations_solve hv', List.map_reverse, List.map_reverse]
    obtain ⟨stop, run, stop', run', hi, hi', rfl, h⟩ | ⟨failure, run, run', hi, hi', h⟩ :=
      Run.Paired.cases joined
    · rw [hi, hi', solve_of_ok hv hi, solve_of_ok hv' hi']
      refine ⟨?_, congrArg List.reverse h.verdicts.symm⟩
      simp only [Except.map, Solution.besideNorms, h.iterations, h.objective]
    · rw [hi, hi', solve_of_error hv hi, solve_of_error hv' hi']
      exact ⟨rfl, congrArg List.reverse h.verdicts.symm⟩

/-- The questions determine what a solution reports of residual norms. -/
theorem besideStepNorm_eq (same : (solver'.solve cs rhs m).result.map Solution.besideNorms =
      (solver.solve cs rhs m).result.map Solution.besideNorms)
    (asked : Event.evaluations (solver'.solve cs rhs m).events =
      Event.evaluations (solver.solve cs rhs m).events) :
    (solver'.solve cs rhs m).result.map Solution.besideStepNorm =
      (solver.solve cs rhs m).result.map Solution.besideStepNorm := by
  refine map_eq_map_of_ok same fun solution' solution h' h hsame => ?_
  have hv := (solve_eq_ok h).1
  have hv' := (solve_eq_ok h').1
  have hnorm : solution'.residualNorm? = solution.residualNorm? := by
    rw [(report_of_ok hv h).1, (report_of_ok hv' h').1, Solved.asked, Solved.asked, asked]
  simp only [Solution.besideNorms, Solution.mk.injEq] at hsame
  obtain ⟨hstep, hreason, hiterations, -, -, hobjective, hconverged⟩ := hsame
  simp only [Solution.besideStepNorm, hstep, hreason, hiterations, hnorm, hobjective, hconverged]

end Solver

end Solve

end TrustRegion
