import TrustRegion.Proofs.Ieee.Finiteness
import TrustRegion.Proofs.Norms

/-! What the figures of a floating-point solve vouch for: a finite objective for the coefficients of
the step, a finite norm for its entries. The step itself is not looked at, and one that is cut off
at the boundary of a finite radius can overflow. -/
namespace TrustRegion

open Scalar (isFinite)
open RunM

variable {T V S H P C : Type}

namespace Run

variable {run mid run' : Run T S H P C} {callee : Callee}

/-- The figures of a run that are numbers. -/
def readings (run : Run T S H P C) : T × T := (run.figures.stepNorm, run.figures.objective)

theorem readings_ofWritten {written : Written V} {v : V}
    (h : mid.ofWritten callee written = .ok v run') (same : mid.readings = run.readings) :
    run'.readings = run.readings := by
  rw [eq_of_ofWritten h]
  exact same

theorem readings_ofAnswer {answer : Except Failure T} {x : T}
    (h : mid.ofAnswer callee answer = .ok x run') (same : mid.readings = run.readings) :
    run'.readings = run.readings := by
  rw [eq_of_ofAnswer h]
  exact same

end Run

namespace RunM

section

variable [VectorSpace T V S] [ActsOn V H] [ActsOn V P] [ConvergenceTest T C]

/-- Computations that set neither of these figures. -/
inductive Inert : {α : Type} → RunM T S H P C α → Prop where
  | pure {α : Type} (a : α) : Inert (pure a)
  | bind {α β : Type} {m : RunM T S H P C α} {k : α → RunM T S H P C β} (hm : Inert m)
      (hk : ∀ a, Inert (k a)) : Inert (m >>= k)
  | dot (x y : V) : Inert (dot x y)
  | norm (x : V) : Inert (norm x)
  | axpy (a : T) (x y : V) : Inert (axpy a x y)
  | aypx (a : T) (x y : V) : Inert (aypx a x y)
  | operate (x y : V) : Inert (operate x y)
  | precondition (r z : V) : Inert (precondition r z)
  | note (n : Note T) : Inert (note n)
  | judge (i : Nat) (x : T) : Inert (judge i x)
  | iterations : Inert iterations
  | countIteration : Inert countIteration

theorem Inert.spares {α : Type} {m : RunM T S H P C α} (h : m.Inert) : m.Spares Run.readings := by
  induction h with
  | bind _ _ hm hk => exact hm.bind hk
  | axpy | aypx | operate | precondition => exact fun _ _ _ h => Run.readings_ofWritten h rfl
  | dot | norm => exact fun _ _ _ h => Run.readings_ofAnswer h rfl
  | _ =>
    rintro run a run' ⟨⟩
    rfl

variable {α : Type} {m : RunM T S H P C α} {a : α} {run run' : Run T S H P C}

theorem Inert.stepNorm_eq (h : m.Inert) (hrun : m run = .ok a run') :
    run'.figures.stepNorm = run.figures.stepNorm :=
  congrArg Prod.fst (h.spares hrun)

theorem Inert.objective_eq (h : m.Inert) (hrun : m run = .ok a run') :
    run'.figures.objective = run.figures.objective :=
  congrArg Prod.snd (h.spares hrun)

end

end RunM

section Phases

variable [Scalar T] [VectorSpace T V S] [ActsOn V H] [ActsOn V P] [ConvergenceTest T C]
  {s : Settings T}

theorem inert_residualNorm {r z : V} {rz : T} {known? : Option T} :
    (residualNorm s r z rz known? : RunM T S H P C T).Inert := by
  unfold residualNorm
  split
  · exact .norm _
  · split
    · exact .pure _
    · exact .norm _
  · exact .pure _

theorem inert_trackStep {it : Iterate T V} {step : V} :
    (trackStep s it step : RunM T S H P C T).Inert := by
  unfold trackStep
  cases s.directionNorm with
  | preconditioned => exact .pure _
  | unpreconditioned => exact .dot _ _

theorem inert_review {it next : Iterate T V} :
    (review s it next : RunM T S H P C (Option Reason)).Inert := by
  unfold review
  split
  · exact .bind (.note _) fun _ => .pure _
  · refine .bind inert_residualNorm fun _ => .bind .iterations fun _ =>
      .bind (.judge _ _) fun verdict => ?_
    cases verdict with
    | converged | diverged => exact .bind (.note _) fun _ => .pure _
    | iterating =>
      refine .bind .iterations fun _ => .bind (.note _) fun _ => ?_
      split
      · exact .bind (.note _) fun _ => .pure _
      · exact .pure _

theorem inert_turn {it next : Iterate T V} :
    (turn s it next : RunM T S H P C (Phase V (Iterate T V))).Inert := by
  refine .bind (.aypx _ _ _) fun _ => ?_
  cases s.directionNorm
  case' unpreconditioned => refine .bind (.dot _ _) fun _ => .bind (.dot _ _) fun _ => ?_
  all_goals
    refine .bind (.pure _) fun _ => .bind (.operate _ _) fun _ => .bind (.dot _ _) fun _ =>
      .bind .countIteration fun _ => ?_
    split
    · exact .bind (.note _) fun _ => .pure _
    · split
      · exact .bind (.note _) fun _ => .pure _
      · exact .pure _

theorem advance_readings {it next : Iterate T V} {run run' : Run T S H P C}
    (h : advance s it run = .ok next run') :
    run'.readings = (Scalar.sqrt next.stepSq,
      run.figures.objective - Scalar.half * it.alpha * it.rz) := by
  simp only [advance_eq, bind_eq_ok, setStepNorm_apply, mapObjective_apply, exists_ok_eq,
    pure_apply] at h
  obtain ⟨step, run₁, h₁, residual, run₂, h₂, z, run₃, h₃, stepSq, run₄, h₄, rz, run₅, h₅, ⟨⟩⟩ := h
  have objective : run₄.figures.objective = run.figures.objective := by
    rw [inert_trackStep.objective_eq h₄, (Inert.precondition _ _).objective_eq h₃,
      (Inert.axpy _ _ _).objective_eq h₂, (Inert.axpy _ _ _).objective_eq h₁]
  rw [(Inert.dot _ _).spares h₅, ← objective]
  rfl

end Phases

namespace Dense

variable [Scalar T]

variable {n : Nat} {a b : T} {p d : List T}

theorem isFinite_zeros [Ieee T] (n : Nat) : IsFinite (zeros n : List T) := by
  intro a ha
  rw [List.eq_of_mem_replicate ha, Ieee.isFinite_eq, Ieee.unpacked_zero]
  rfl

/-- A finite combination has a finite coefficient, unless it has no entries. -/
theorem isFinite_of_combine [Ieee T] (same : p.length = d.length)
    (h : IsFinite (combine a p b d)) : p = [] ∨ isFinite a = true := by
  cases p with
  | nil => exact .inl rfl
  | cons x p =>
    cases d with
    | nil => cases same
    | cons y d =>
      right
      unfold combine at h
      split at h
      · exact (Ieee.isFinite_mul (isFinite_cons.mp h).1).1
      · have hsum := (isFinite_cons.mp h).1
        have hproduct := (Ieee.isFinite_add hsum).1
        exact (Ieee.isFinite_mul hproduct).1

end Dense

section Steps

variable [Scalar T] {s : Settings T} {rhs : List T} {run run' : Run T (Euclidean T) H P C}
  {it next : Iterate T (List T)}

/-- The objective of a gradient step is a product with the step, and shows it to be finite. -/
theorem gradientStep_vouches [RoundedIeee T] [ActsOn (List T) H] {rr : T} {step scratch y : List T}
    (h : gradientStep s rhs rr step scratch run = .ok y run') :
    y = step ∨ (isFinite run'.figures.objective = true → Dense.IsFinite y) := by
  unfold gradientStep at h
  split at h
  · cases h
    exact .inl rfl
  · right
    intro finite
    simp only [bind_eq_ok, setStepNorm_apply, mapObjective_apply, countIteration_apply,
      exists_ok_eq, pure_apply] at h
    obtain ⟨y, run₁, h₁, product, run₂, h₂, difference, run₃, h₃, value, run₄, h₄, ⟨⟩⟩ := h
    exact (yields_dot h₄ (Ieee.isFinite_neg finite)).1

theorem boundaryStep_objective {tau curvature rz : T} {direction step y : List T}
    (h : boundaryStep s tau curvature rz direction step run = .ok y run') :
    run'.figures.objective = run.figures.objective + modelChange tau curvature rz := by
  simp only [boundaryStep, bind_eq_ok, setStepNorm_apply, mapObjective_apply, exists_ok_eq,
    pure_apply] at h
  obtain ⟨y, run₁, h₁, ⟨⟩⟩ := h
  rw [Run.eq_of_ofWritten h₁]
  rfl

theorem advance_stepSq [ActsOn (List T) P] (norm : s.directionNorm = .unpreconditioned)
    (h : advance s it run = .ok next run') : next.stepSq = Dense.dot next.step next.step := by
  simp only [advance_eq, trackStep, norm, bind_eq_ok, setStepNorm_apply, mapObjective_apply,
    exists_ok_eq, pure_apply] at h
  obtain ⟨step, run₁, h₁, residual, run₂, h₂, z, run₃, h₃, stepSq, run₄, h₄, rz, run₅, h₅, ⟨⟩⟩ := h
  simp only [dot, VectorSpace.dot, Euclidean.dot, if_pos] at h₄
  cases h₄
  rfl

theorem boundaryStep_vouches [RoundedIeee T] {tau curvature rz : T} {direction step y : List T}
    (h : boundaryStep s tau curvature rz direction step run = .ok y run')
    (finite : isFinite run'.figures.objective = true) :
    isFinite run.figures.objective = true ∧ isFinite tau = true := by
  rw [boundaryStep_objective h] at finite
  obtain ⟨earlier, change⟩ := Ieee.isFinite_add finite
  exact ⟨earlier, (Ieee.isFinite_mul change).1⟩

variable [RoundedIeee T] [ActsOn (List T) H] [ActsOn (List T) P] [ConvergenceTest T C] {m k : Nat}
  {run₀ : Run T (Euclidean T) H P C} {stop : Stop (List T)} {terms : List (T × List T)} {a : T}
  {p : List T}

theorem FullStep.vouches (full : FullStep s it run next run')
    (finite : isFinite run'.figures.objective = true) :
    isFinite run.figures.objective = true ∧ isFinite it.alpha = true := by
  have objective : run'.figures.objective =
      run.figures.objective - Scalar.half * it.alpha * it.rz :=
    congrArg Prod.snd (advance_readings full.advances)
  rw [objective] at finite
  obtain ⟨earlier, change⟩ := Ieee.isFinite_sub finite
  exact ⟨earlier, (Ieee.isFinite_mul (Ieee.isFinite_mul change).1).2⟩

theorem Takes.isFinite_concat (takes : Takes s rhs m run₀ (k + 1) terms)
    (pass : ReachesPass s rhs m run₀ k it run) (full : FullStep s it run next run')
    (finite : isFinite run'.figures.objective = true)
    (earlier : ∀ terms, Takes s rhs m run₀ k terms → isFinite run.figures.objective = true →
      ∀ a p, (a, p) ∈ terms → isFinite a = true)
    (h : (a, p) ∈ terms) : isFinite a = true := by
  obtain ⟨hobjective, halpha⟩ := full.vouches finite
  cases takes with
  | full takes pass' full' =>
    obtain ⟨rfl, rfl⟩ := pass'.unique pass
    rcases List.mem_append.mp h with h | h
    · exact earlier _ takes hobjective a p h
    · obtain ⟨rfl, rfl⟩ := Prod.mk.inj (List.mem_singleton.mp h)
      exact halpha

/-- A finite objective at a pass vouches for the coefficients of the full steps before it. -/
theorem ReachesPass.vouches (pass : ReachesPass s rhs m run₀ k it run)
    (takes : Takes s rhs m run₀ k terms) (finite : isFinite run.figures.objective = true)
    (h : (a, p) ∈ terms) : isFinite a = true := by
  induction pass generalizing terms a p with
  | first =>
    cases takes
    exact absurd h List.not_mem_nil
  | next pass full reviews _ turns ih =>
    rw [inert_turn.objective_eq turns, inert_review.objective_eq reviews] at finite
    exact takes.isFinite_concat pass full finite
      (fun terms takes finite a p h => ih takes finite h) h

theorem FullStep.isFinite_of_takes (full : FullStep s it run next run')
    (pass : ReachesPass s rhs m run₀ k it run) (takes : Takes s rhs m run₀ (k + 1) terms)
    (finite : isFinite run'.figures.objective = true) (h : (a, p) ∈ terms) : isFinite a = true :=
  takes.isFinite_concat pass full finite
    (fun _ takes finite _ _ h => pass.vouches takes finite h) h

theorem Ends.vouches (ends : Ends s rhs m run₀ k stop run) (takes : Takes s rhs m run₀ k terms)
    (finite : isFinite run.figures.objective = true) (h : (a, p) ∈ terms) : isFinite a = true := by
  cases ends with
  | badPreconditioner | indefinitePreconditioner | first =>
    cases takes
    exact absurd h List.not_mem_nil
  | @boundary k it step run run₁ pass _ truncates =>
    refine pass.vouches takes ?_ h
    obtain ⟨_, _, ⟨⟩, truncates⟩ := bind_eq_ok.mp truncates
    split at truncates
    · exact (boundaryStep_vouches truncates finite).1
    · cases truncates
      exact finite
  | review pass full stops =>
    rw [inert_review.objective_eq stops] at finite
    exact full.isFinite_of_takes pass takes finite h
  | limit pass full reviews _ =>
    have objective := inert_review.objective_eq reviews
    exact full.isFinite_of_takes pass takes (objective ▸ finite) h
  | turn pass full reviews _ stops =>
    rw [inert_turn.objective_eq stops, inert_review.objective_eq reviews] at finite
    exact full.isFinite_of_takes pass takes finite h

/-- What closes a solve is what is added to the full steps, and a finite objective vouches for its
coefficient. -/
theorem Closes.step_eq (closes : Closes s rhs m run₀ k a p)
    (go : iterate s rhs m run₀ = .ok stop run) :
    (∃ terms, Takes s rhs m run₀ k terms ∧
      stop.step = Dense.combine a p 1 (Dense.laid rhs.length terms)) ∧
    (isFinite run.figures.objective = true → isFinite a = true) := by
  cases closes with
  | gradient starts falls bounded nonempty =>
    obtain ⟨b, run₁, reason, scratch, run₂, starts', heq⟩ := falls.iterate_eq m
    cases starts.symm.trans starts'
    obtain ⟨y, run₃, gradient, ⟨⟩⟩ := bind_eq_ok.mp (heq.symm.trans go)
    rw [(yields_start starts).zero] at gradient
    obtain ⟨free, -⟩ | ⟨-, hy⟩ := yields_gradientStep gradient
    · exact absurd free (by simp [bounded])
    · refine ⟨⟨[], .none, hy⟩, fun finite => ?_⟩
      have entries : Dense.IsFinite y := by
        rcases gradientStep_vouches gradient with stays | entries
        · exact stays ▸ Dense.isFinite_zeros _
        · exact entries finite
      exact (Dense.isFinite_of_combine (by simp) (hy ▸ entries)).resolve_left nonempty
  | leave starts finite nonneg probes curved measures flat constrained long =>
    rw [iterate_of_flat m starts finite nonneg probes curved measures flat constrained long] at go
    obtain ⟨y, run₁, leaves, ⟨⟩⟩ := bind_eq_ok.mp go
    refine ⟨⟨[], .none, ?_⟩, fun finite => (boundaryStep_vouches leaves finite).2⟩
    rw [(yields_start starts).zero, yields_probe probes] at leaves
    exact yields_boundaryStep leaves
  | cut pass crosses long =>
    rw [pass.iterate_eq, passes_crossing _ crosses] at go
    obtain ⟨y, run₁, truncates, ⟨⟩⟩ := bind_eq_ok.mp go
    obtain ⟨terms, takes, hstep⟩ := pass.laid
    refine ⟨⟨terms, takes, hstep ▸ yields_truncate_long long truncates⟩, fun finite => ?_⟩
    obtain ⟨_, _, ⟨⟩, truncates⟩ := bind_eq_ok.mp truncates
    rw [if_pos long] at truncates
    exact (boundaryStep_vouches truncates finite).2

theorem FullStep.isFinite_step (full : FullStep s it run next run')
    (norm : s.directionNorm = .unpreconditioned)
    (finite : isFinite run'.figures.stepNorm = true) : Dense.IsFinite next.step := by
  have stepNorm : run'.figures.stepNorm = Scalar.sqrt next.stepSq :=
    congrArg Prod.fst (advance_readings full.advances)
  rw [stepNorm, advance_stepSq norm full.advances] at finite
  exact (Dense.isFinite_of_dot rfl (Ieee.isFinite_sqrt finite)).1

theorem Ends.isFinite_step (ends : Ends s rhs m run₀ k stop run)
    (norm : s.directionNorm = .unpreconditioned) (uncut : stop.reason ≠ .constrainedStep)
    (long : 0 < k) (finite : isFinite run.figures.stepNorm = true) : Dense.IsFinite stop.step := by
  cases ends with
  | badPreconditioner | indefinitePreconditioner | first => exact absurd long (Nat.lt_irrefl 0)
  | boundary => exact absurd rfl uncut
  | review pass full stops =>
    rw [inert_review.stepNorm_eq stops] at finite
    exact full.isFinite_step norm finite
  | limit pass full reviews _ =>
    have stepNorm := inert_review.stepNorm_eq reviews
    exact full.isFinite_step norm (stepNorm ▸ finite)
  | turn pass full reviews _ stops =>
    have stays : _ = _ := yields_turn_sound stops
    rw [inert_turn.stepNorm_eq stops, inert_review.stepNorm_eq reviews] at finite
    rw [stays]
    exact full.isFinite_step norm finite

end Steps

namespace Solver

variable [Scalar T] [RoundedIeee T] [ActsOn (List T) H] [ActsOn (List T) P] [ConvergenceTest T C]

/-- What the figures of a floating-point solution tell about its step. -/
structure Vouches (solver : Solver T) (cs : Collaborators (Euclidean T) H P C) (rhs : List T)
    (m : Nat) (solution : Solution T (List T)) : Prop where
  laid : IsLaid solver.settings rhs m cs.begin (Event.fullSteps (solver.solve cs rhs m).events)
    solution.step
  /-- If the objective is finite, so are the coefficients that the full steps were taken with. -/
  fullSteps (finite : isFinite solution.objective = true) {terms : List (T × List T)}
    (takes : Takes solver.settings rhs m cs.begin (Event.fullSteps (solver.solve cs rhs m).events)
      terms) {a : T} {p : List T} (h : (a, p) ∈ terms) : isFinite a = true ∧ Dense.IsFinite p
  /-- So is the coefficient of what was added to them in the end. -/
  lastStep {k : Nat} {a : T} {p : List T} (closes : Closes solver.settings rhs m cs.begin k a p) :
    (∃ terms, Takes solver.settings rhs m cs.begin k terms ∧
      solution.step = Dense.combine a p 1 (Dense.laid rhs.length terms)) ∧
    (isFinite solution.objective = true → isFinite a = true ∧ Dense.IsFinite p)
  /-- The objective of a gradient step is computed from the step. -/
  gradient (finite : isFinite solution.objective = true)
    (falls : TakesGradient solver.settings rhs cs.begin) : Dense.IsFinite solution.step
  /-- The norm of a step that ends with a full one is computed from the step as well. -/
  stepNorm (finite : isFinite solution.stepNorm = true)
    (norm : solver.settings.directionNorm = .unpreconditioned)
    (uncut : solution.reason ≠ .constrainedStep)
    (long : 0 < Event.fullSteps (solver.solve cs rhs m).events) : Dense.IsFinite solution.step

/-- Finite figures of a floating-point solve vouch for its step, apart from the entries of one that
was cut off at the boundary, whose reported norm is the radius itself. -/
theorem solve_vouches {solver : Solver T} {cs : Collaborators (Euclidean T) H P C} {rhs : List T}
    {m : Nat} {solution : Solution T (List T)}
    (h : (solver.solve cs rhs m).result = .ok solution) : solver.Vouches cs rhs m solution := by
  obtain ⟨-, k, stop, run, ends, hstep, hreason, hnorm, hobjective, -, hevents, -⟩ :=
    solve_eq_ok h
  constructor
  case laid =>
    rw [hevents, ends.fullSteps_events rfl, hstep]
    exact ends.isLaid
  case fullSteps =>
    intro finite terms takes a p h
    rw [hobjective] at finite
    rw [hevents, ends.fullSteps_events rfl] at takes
    exact ⟨ends.vouches takes finite h, (takes.sound h).1⟩
  case lastStep =>
    intro k' a p closes
    obtain ⟨added, vouches⟩ := closes.step_eq ends.iterate_eq
    rw [hobjective, hstep]
    exact ⟨added, fun finite => ⟨vouches finite, closes.leaves.isFinite⟩⟩
  case gradient =>
    intro finite falls
    obtain ⟨b, run₁, reason, scratch, run₂, starts, heq⟩ := falls.iterate_eq m
    obtain ⟨y, run₃, gradient, ⟨⟩⟩ := bind_eq_ok.mp (heq.symm.trans ends.iterate_eq)
    rw [hobjective] at finite
    rw [hstep]
    rcases gradientStep_vouches gradient with stays | entries
    · rw [stays, (yields_start starts).zero]
      exact Dense.isFinite_zeros _
    · exact entries finite
  case stepNorm =>
    intro finite norm uncut long
    rw [hnorm] at finite
    rw [hreason] at uncut
    rw [hevents, ends.fullSteps_events rfl] at long
    rw [hstep]
    exact ends.isFinite_step norm uncut long finite

theorem solve_vouches_watched : ∃ solution,
    (watched.solve twoEquations [3, 4] 5).result = .ok solution ∧
      watched.Vouches twoEquations [3, 4] 5 solution ∧ Dense.IsFinite solution.step ∧
      ∀ terms, Takes watched.settings [3, 4] 5 twoEquations.begin
          (Event.fullSteps (watched.solve twoEquations [3, 4] 5).events) terms →
        ∀ a p, (a, p) ∈ terms → isFinite a = true := by
  have figures : ((watched.solve twoEquations [3, 4] 5).result.toOption.map fun solution =>
      (isFinite solution.stepNorm, isFinite solution.objective, solution.reason)) =
        some (true, true, .iterationLimit) := by
    decide +kernel
  cases h : (watched.solve twoEquations [3, 4] 5).result with
  | error failure =>
    rw [h] at figures
    cases figures
  | ok solution =>
    rw [h] at figures
    obtain ⟨norm, rest⟩ := Prod.mk.inj (Option.some.inj figures)
    obtain ⟨objective, reason⟩ := Prod.mk.inj rest
    have vouches := solve_vouches h
    have long : 0 < Event.fullSteps (watched.solve twoEquations [3, 4] 5).events := by
      decide +kernel
    exact ⟨solution, rfl, vouches, vouches.stepNorm norm rfl (by simp [reason]) long,
      fun terms takes a p hmem => (vouches.fullSteps objective takes hmem).1⟩

/-- An operator and a preconditioner that write the same faint vectors whatever they are applied to:
what minus the identity and the identity make of a right-hand side of `1e-160`. -/
def faint : Collaborators (Euclidean Float) (Rule Float) (Rule Float) (Criterion Float) :=
  ⟨⟨⟩, .fill (-1e-160), .fill 1e-160, .never⟩

/-- The square of a faint direction is positive, but the square of the radius divided by it is
infinite, and so is the step to the boundary: all that goes in is finite. -/
theorem solve_overflows_faint : ∃ solver, watched.setRadius 1 = .ok solver ∧
    Dense.IsFinite [(1e-160 : Float)] ∧
    (∀ x y : List Float, Dense.IsFinite (faint.operator.apply x y).1.content ∧
      Dense.IsFinite (faint.preconditioner.apply x y).1.content) ∧
    ((solver.solve faint [1e-160] 10).result.toOption.map fun solution =>
      (solution.reason, solution.converged, solution.step.all isFinite, solution.stepNorm == 1,
        isFinite solution.objective)) = some (.negativeCurvature, true, false, true, false) := by
  refine ⟨{ watched with settings.radius := 1 }, by rfl, ?_, fun x y => ⟨?_, ?_⟩, ?_⟩
  · intro a ha
    obtain rfl := List.mem_singleton.mp ha
    decide +kernel
  · intro a ha
    obtain ⟨-, -, rfl⟩ := List.mem_map.mp ha
    decide +kernel
  · intro a ha
    obtain ⟨-, -, rfl⟩ := List.mem_map.mp ha
    decide +kernel
  · decide +kernel

end Solver

end TrustRegion
