import TrustRegion.Proofs.FullSteps
import TrustRegion.Proofs.Ieee.Phases
import TrustRegion.Proofs.Observers

/-! Floating-point solves: every pass starts from finite vectors, and no infinite entry or NaN that
the operator or the preconditioner writes reaches the step. -/
namespace TrustRegion

open Scalar (isFinite isNaN)
open RunM

variable {T H P C : Type} [Scalar T] [Ieee T] [ActsOn (List T) H] [ActsOn (List T) P]
  [ConvergenceTest T C]

/-- What a pass starts from: finite vectors and products, of which none is negative and the
curvature is positive. -/
structure Iterate.IsSound (it : Iterate T (List T)) : Prop extends it.IsCurved where
  rz_finite : isFinite it.rz = true
  rz_nonneg : 0 ≤ it.rz
  residual : Dense.IsFinite it.residual
  preconditioned : Dense.IsFinite it.preconditioned

section Solve

variable {s : Settings T} {rhs : List T} {m k : Nat} {it next : Iterate T (List T)}
  {run₀ run run' : Run T (Euclidean T) H P C} {stop : Stop (List T)}

omit [ActsOn (List T) H] [ActsOn (List T) P] [ConvergenceTest T C] in
theorem Iterate.IsCurved.sound {d r z : List T} {rz : T} (curved : it.IsCurved)
    (hat : it.At d r z rz) (finite : isFinite rz = true) (nonneg : ¬ rz < 0)
    (hr : Dense.IsFinite r) (hz : Dense.IsFinite z) : it.IsSound :=
  { curved with
    rz_finite := hat.rz ▸ finite
    rz_nonneg := hat.rz ▸ Ieee.nonneg_of_not_lt finite nonneg
    residual := hat.residual ▸ hr
    preconditioned := hat.preconditioned ▸ hz }

theorem ReachesPass.sound (pass : ReachesPass s rhs m run₀ k it run) :
    it.IsSound ∧ (1 ≤ k → 0 < it.rz) := by
  induction pass with
  | first starts finite nonneg goes =>
    obtain ⟨hr, hz⟩ := (yields_start starts).vectors finite
    obtain ⟨curved, hat⟩ := yields_first_sound goes
    exact ⟨curved.sound hat finite nonneg hr hz, fun later => absurd later (by omega)⟩
  | @next k it next it' _ _ _ _ _ full reviews _ turns ih =>
    obtain ⟨sound, -⟩ := ih
    obtain ⟨curved, hat⟩ := yields_turn_sound turns
    obtain ⟨nonneg, regular, nonzero⟩ := yields_review reviews rfl
    have finite : isFinite next.rz = true := Ieee.isFinite_div regular sound.rz_finite
    have pos : 0 < next.rz := Ieee.pos_of_div finite nonneg regular nonzero
    obtain ⟨hr, hz⟩ := (yields_advance full.advances).vectors finite
    exact ⟨curved.sound hat finite nonneg hr hz, fun _ => hat.rz ▸ pos⟩

omit [ActsOn (List T) H] [ActsOn (List T) P] [ConvergenceTest T C] in
/-- The coefficient of a full step is a number, not negative and no quotient by zero. -/
theorem Iterate.IsSound.alpha (sound : it.IsSound) :
    0 ≤ it.alpha ∧ isNaN it.alpha = false ∧ ¬ it.alpha < 0 ∧ (it.curvature == 0) = false := by
  have nonneg : 0 ≤ it.alpha := Ieee.nonneg_div sound.rz_finite sound.rz_nonneg
    sound.curvature_finite sound.curvature_pos
  exact ⟨nonneg, Ieee.isNaN_of_nonneg nonneg, Ieee.not_lt_of_nonneg nonneg,
    Ieee.beq_zero_of_pos sound.curvature_pos⟩

end Solve

omit [Ieee T] [ActsOn (List T) H] [ActsOn (List T) P] [ConvergenceTest T C] in
/-- The step that consists of the given multiples of directions, added in order. -/
def Dense.laid (n : Nat) (terms : List (T × List T)) : List T :=
  terms.foldl (fun d (a, p) => combine a p 1 d) (zeros n)

omit [Ieee T] in
theorem Dense.laid_concat (n : Nat) (terms : List (T × List T)) (a : T) (p : List T) :
    laid n (terms ++ [(a, p)]) = combine a p 1 (laid n terms) := by
  rw [laid, List.foldl_append]
  rfl

section Steps

variable (s : Settings T) (rhs : List T) (m : Nat) (run₀ : Run T (Euclidean T) H P C)

/-- The coefficients and the directions of the full steps that a solve takes, in order. -/
inductive Takes : Nat → List (T × List T) → Prop where
  | none : Takes 0 []
  | full {k : Nat} {terms : List (T × List T)} {it next : Iterate T (List T)}
      {run run' : Run T (Euclidean T) H P C} (takes : Takes k terms)
      (pass : ReachesPass s rhs m run₀ k it run) (full : FullStep s it run next run') :
      Takes (k + 1) (terms ++ [(it.alpha, it.direction)])

/-- The directions that a solve can follow after its full steps, when it ends. -/
inductive Leaves : Nat → List T → Prop where
  | gradient {b : Start T (List T)} {run : Run T (Euclidean T) H P C}
      (starts : start rhs run₀ = .ok b run) : Leaves 0 rhs
  | first {b : Start T (List T)} {run : Run T (Euclidean T) H P C}
      (starts : start rhs run₀ = .ok b run) (finite : isFinite b.rz = true) :
      Leaves 0 b.preconditioned
  | cut {k : Nat} {it : Iterate T (List T)} {run : Run T (Euclidean T) H P C}
      (pass : ReachesPass s rhs m run₀ k it run) (crosses : it.Crosses s) : Leaves k it.direction

/-- The coefficient and the direction of what a solve adds to its full steps, when it ends: the
gradient step, the step along a first direction of no positive curvature, or the step that is cut
off. -/
inductive Closes : Nat → T → List T → Prop where
  | gradient {b : Start T (List T)} {run : Run T (Euclidean T) H P C}
      (starts : start rhs run₀ = .ok b run) (falls : TakesGradient s rhs run₀)
      (bounded : (s.radius == 0) = false) (nonempty : rhs ≠ []) :
      Closes 0 (s.gradientFactor b.rr) rhs
  | leave {b : Start T (List T)} {p : Probe T (List T)} {directionSq : T}
      {run run' run'' : Run T (Euclidean T) H P C} (starts : start rhs run₀ = .ok b run)
      (finite : isFinite b.rz = true) (nonneg : ¬ b.rz < 0) (probes : probe s b run = .ok p run')
      (curved : isFinite p.curvature = true)
      (measures : measure s b p.direction run' = .ok directionSq run'') (flat : p.curvature ≤ 0)
      (constrained : s.isConstrained = true) (long : directionSq > 0) :
      Closes 0 (Scalar.sqrt (s.radiusSq / directionSq)) b.preconditioned
  | cut {k : Nat} {it : Iterate T (List T)} {run : Run T (Euclidean T) H P C}
      (pass : ReachesPass s rhs m run₀ k it run) (crosses : it.Crosses s)
      (long : it.directionSq > 0) : Closes k (it.boundary s) it.direction

variable {s rhs m run₀} {k : Nat} {it next : Iterate T (List T)} {terms : List (T × List T)}
  {run run' : Run T (Euclidean T) H P C} {stop : Stop (List T)} {a : T} {p : List T}

theorem Takes.sound (takes : Takes s rhs m run₀ k terms) (h : (a, p) ∈ terms) :
    Dense.IsFinite p ∧ 0 ≤ a ∧ isNaN a = false := by
  induction takes with
  | none => exact absurd h List.not_mem_nil
  | full _ pass _ ih =>
    obtain h | h := List.mem_append.mp h
    · exact ih h
    · obtain ⟨rfl, rfl⟩ := Prod.mk.inj (List.mem_singleton.mp h)
      obtain ⟨sound, -⟩ := pass.sound
      exact ⟨sound.direction, sound.alpha.1, sound.alpha.2.1⟩

omit [Ieee T] in
theorem Closes.leaves (closes : Closes s rhs m run₀ k a p) : Leaves s rhs m run₀ k p := by
  cases closes with
  | gradient starts => exact .gradient starts
  | leave starts finite => exact .first starts finite
  | cut pass crosses => exact .cut pass crosses

theorem Leaves.isFinite (leaves : Leaves s rhs m run₀ k p) : Dense.IsFinite p := by
  cases leaves with
  | gradient starts => exact (yields_start starts).rhs_finite
  | first starts finite => exact ((yields_start starts).vectors finite).2
  | cut pass _ => exact pass.sound.1.direction

theorem ReachesPass.laid (pass : ReachesPass s rhs m run₀ k it run) :
    ∃ terms, Takes s rhs m run₀ k terms ∧ it.step = Dense.laid rhs.length terms := by
  induction pass with
  | first starts _ _ goes =>
    obtain ⟨-, hat⟩ := yields_first_sound goes
    exact ⟨[], .none, hat.step.trans (yields_start starts).zero⟩
  | next pass full _ _ turns ih =>
    obtain ⟨terms, takes, hstep⟩ := ih
    obtain ⟨-, hat⟩ := yields_turn_sound turns
    refine ⟨_, takes.full pass full, ?_⟩
    rw [hat.step, (yields_advance full.advances).step, Dense.laid_concat, hstep]

theorem FullStep.laid (full : FullStep s it run next run')
    (pass : ReachesPass s rhs m run₀ k it run) :
    ∃ terms, Takes s rhs m run₀ (k + 1) terms ∧ next.step = Dense.laid rhs.length terms := by
  obtain ⟨terms, takes, hstep⟩ := pass.laid
  refine ⟨_, takes.full pass full, ?_⟩
  rw [(yields_advance full.advances).step, Dense.laid_concat, hstep]

/-- A step that is laid from full steps, and perhaps one along a last direction. -/
def Concludes (s : Settings T) (rhs : List T) (m : Nat) (run₀ : Run T (Euclidean T) H P C) (k : Nat)
    (step : List T) : Prop :=
  ∃ terms last?, Takes s rhs m run₀ k terms ∧
    (∀ a p, last? = some (a, p) → Leaves s rhs m run₀ k p) ∧
    step = Dense.laid rhs.length (terms ++ last?.toList)

/-- A step that is laid from full steps, and from what is added to them in the end if anything
is. -/
def IsLaid (s : Settings T) (rhs : List T) (m : Nat) (run₀ : Run T (Euclidean T) H P C) (k : Nat)
    (step : List T) : Prop :=
  ∃ terms last?, Takes s rhs m run₀ k terms ∧
    (∀ a p, last? = some (a, p) → Closes s rhs m run₀ k a p) ∧
    step = Dense.laid rhs.length (terms ++ last?.toList)

omit [Ieee T] in
theorem IsLaid.concludes {step : List T} (laid : IsLaid s rhs m run₀ k step) :
    Concludes s rhs m run₀ k step := by
  obtain ⟨terms, last?, takes, closes, hstep⟩ := laid
  exact ⟨terms, last?, takes, fun a p hlast => (closes a p hlast).leaves, hstep⟩

omit [Ieee T] in
theorem Takes.isLaid (takes : Takes s rhs m run₀ k terms) :
    IsLaid s rhs m run₀ k (Dense.laid rhs.length terms) :=
  ⟨terms, Option.none, takes, nofun, by rw [Option.toList_none, List.append_nil]⟩

omit [Ieee T] in
theorem Takes.isLaid_closing (takes : Takes s rhs m run₀ k terms)
    (closes : Closes s rhs m run₀ k a p) :
    IsLaid s rhs m run₀ k (Dense.combine a p 1 (Dense.laid rhs.length terms)) := by
  refine ⟨terms, some (a, p), takes, ?_, (Dense.laid_concat _ _ _ _).symm⟩
  rintro a' p' ⟨⟩
  exact closes

theorem TakesGradient.isLaid {b : Start T (List T)} {scratch y : List T}
    {mid : Run T (Euclidean T) H P C} (falls : TakesGradient s rhs run₀)
    (starts : start rhs run₀ = .ok b mid)
    (h : gradientStep s rhs b.rr b.zero scratch run = .ok y run') :
    IsLaid s rhs m run₀ 0 y := by
  have hzero := (yields_start starts).zero
  obtain ⟨-, rfl⟩ | ⟨bounded, rfl⟩ := yields_gradientStep h
  · rw [hzero]
    exact Takes.none.isLaid
  · rw [hzero]
    by_cases empty : rhs = []
    · subst empty
      have hnil : Dense.combine (s.gradientFactor b.rr) [] 1 (Dense.zeros 0) = Dense.laid 0 [] := by
        simp [Dense.combine, Dense.laid, Dense.zeros]
      exact hnil ▸ Takes.none.isLaid
    · exact Takes.none.isLaid_closing (.gradient starts falls bounded empty)

omit [Ieee T] [ActsOn (List T) P] in
theorem yields_probe {b : Start T (List T)} :
    (probe s b : RunM T (Euclidean T) H P C (Probe T (List T))).Yields fun p =>
      p.direction = b.preconditioned :=
  .bind fun _ => .bind fun _ => .bind fun _ => yields_copy.andThen fun _ hdirection =>
    .bind fun _ => .bind fun _ => .bind fun _ => yields_pure hdirection

theorem first_isLaid {b : Start T (List T)} {reason : Reason} {y : List T}
    (starts : start rhs run₀ = .ok b run) (finite : isFinite b.rz = true) (nonneg : ¬ b.rz < 0)
    (h : first s rhs b run = .ok (.stopped reason y) run') : IsLaid s rhs m run₀ 0 y := by
  have hzero := (yields_start starts).zero
  rw [first_eq] at h
  obtain ⟨p, run₁, probes, h⟩ := bind_eq_ok.mp h
  unfold depart at h
  split at h
  · next infinite =>
    obtain ⟨_, _, ⟨⟩, h⟩ := bind_eq_ok.mp h
    obtain ⟨y, run₂, falls, ⟨⟩⟩ := bind_eq_ok.mp h
    exact (TakesGradient.operator starts finite nonneg probes (by simpa using infinite)).isLaid
      starts falls
  · next curved =>
    have curved : isFinite p.curvature = true := by simpa using curved
    obtain ⟨directionSq, run₂, measures, h⟩ := bind_eq_ok.mp h
    split at h
    · next flat =>
      obtain ⟨_, _, ⟨⟩, h⟩ := bind_eq_ok.mp h
      obtain ⟨y, run₃, leaves, ⟨⟩⟩ := bind_eq_ok.mp h
      unfold leave at leaves
      split at leaves
      · next constrained =>
        split at leaves
        · next long =>
          obtain rfl := yields_boundaryStep leaves
          show IsLaid s rhs m run₀ 0 (Dense.combine _ p.direction 1 b.zero)
          rw [hzero, yields_probe probes]
          exact Takes.none.isLaid_closing
            (.leave starts finite nonneg probes curved measures flat constrained long)
        · next short =>
          exact (TakesGradient.direction starts finite nonneg probes curved measures flat
            constrained short).isLaid starts leaves
      · cases leaves
        show IsLaid s rhs m run₀ 0 b.zero
        rw [hzero]
        exact Takes.none.isLaid
    · cases h

/-- The step at the end is laid from the full steps, and from what is added to them. -/
theorem Ends.isLaid (ends : Ends s rhs m run₀ k stop run) : IsLaid s rhs m run₀ k stop.step := by
  cases ends with
  | badPreconditioner starts infinite falls =>
    exact (TakesGradient.preconditioner starts (.inl infinite)).isLaid starts falls
  | indefinitePreconditioner starts _ neg falls =>
    exact (TakesGradient.preconditioner starts (.inr neg)).isLaid starts falls
  | first starts finite nonneg stops => exact first_isLaid starts finite nonneg stops
  | @boundary k it step run run₁ pass crosses truncates =>
    obtain ⟨terms, takes, hstep⟩ := pass.laid
    by_cases long : it.directionSq > 0
    · obtain rfl := yields_truncate_long long truncates
      rw [hstep]
      exact takes.isLaid_closing (.cut pass crosses long)
    · rw [truncate, if_neg long] at truncates
      obtain ⟨_, _, ⟨⟩, ⟨⟩⟩ := bind_eq_ok.mp truncates
      rw [hstep]
      exact takes.isLaid
  | review pass full _ | limit pass full _ _ =>
    obtain ⟨terms, takes, hstep⟩ := full.laid pass
    show IsLaid s rhs m run₀ _ _
    rw [hstep]
    exact takes.isLaid
  | turn pass full _ _ stops =>
    have stays : _ = _ := yields_turn_sound stops
    obtain ⟨terms, takes, hstep⟩ := full.laid pass
    rw [stays, hstep]
    exact takes.isLaid

end Steps

namespace Solver

/-- What keeps the infinite entries and the NaN that operator and preconditioner write away from
the step of a solve. -/
structure Shields (solver : Solver T) (cs : Collaborators (Euclidean T) H P C) (rhs : List T)
    (m : Nat) : Prop where
  sound {k : Nat} {it : Iterate T (List T)} {run : Run T (Euclidean T) H P C}
    (pass : ReachesPass solver.settings rhs m cs.begin k it run) :
      it.IsSound ∧ (1 ≤ k → 0 < it.rz)
  alpha {k : Nat} {it : Iterate T (List T)} {run : Run T (Euclidean T) H P C}
    (pass : ReachesPass solver.settings rhs m cs.begin k it run) :
      0 ≤ it.alpha ∧ isNaN it.alpha = false ∧ ¬ it.alpha < 0 ∧ (it.curvature == 0) = false
  /-- The step is made of the full steps, and perhaps of one along a last direction. -/
  step {solution : Solution T (List T)} (h : (solver.solve cs rhs m).result = .ok solution) :
    Concludes solver.settings rhs m cs.begin (Event.fullSteps (solver.solve cs rhs m).events)
      solution.step
  fullSteps {k : Nat} {terms : List (T × List T)}
    (takes : Takes solver.settings rhs m cs.begin k terms) {a : T} {p : List T}
    (h : (a, p) ∈ terms) : Dense.IsFinite p ∧ 0 ≤ a ∧ isNaN a = false
  lastStep {k : Nat} {p : List T} (leaves : Leaves solver.settings rhs m cs.begin k p) :
    Dense.IsFinite p
  /-- A preconditioner that writes such an entry ends the solve with the full step of the pass. -/
  preconditioner {k : Nat} {it next : Iterate T (List T)} {run run' : Run T (Euclidean T) H P C}
    (pass : ReachesPass solver.settings rhs m cs.begin k it run)
    (full : FullStep solver.settings it run next run')
    (infinite : ¬ Dense.IsFinite next.preconditioned) :
      ∃ solution, (solver.solve cs rhs m).result = .ok solution ∧
        solution.step = Dense.combine it.alpha it.direction 1 it.step ∧
        (solution.reason = .indefinitePreconditioner ∨ solution.reason = .breakdown ∨
          ∃ verdict : Verdict, verdict.reason? = some solution.reason)
  /-- An operator that writes such an entry ends the solve with the step that it has. -/
  operator {k : Nat} {it next steered : Iterate T (List T)}
    {run run₁ run₂ run₃ : Run T (Euclidean T) H P C}
    (pass : ReachesPass solver.settings rhs m cs.begin k it run)
    (full : FullStep solver.settings it run next run₁)
    (reviews : review solver.settings it next run₁ = .ok none run₂)
    (below : k + 1 < iterationCap rhs m cs.begin)
    (steers : steer solver.settings it next run₂ = .ok steered run₃)
    (same : steered.direction.length = steered.product.length)
    (infinite : ¬ Dense.IsFinite steered.product) :
      ∃ solution, (solver.solve cs rhs m).result = .ok solution ∧
        solution.step = Dense.combine it.alpha it.direction 1 it.step ∧
        solution.reason = .badOperator

/-- Floating-point solves are safe from infinite entries and NaN, whatever operator, preconditioner
and convergence test do. -/
theorem solve_shields {solver : Solver T} (reached : solver.Reachable)
    (cs : Collaborators (Euclidean T) H P C) (rhs : List T) (m : Nat) :
    solver.Shields cs rhs m := by
  have valid := reached.valid
  constructor
  case sound => exact fun pass => pass.sound
  case alpha => exact fun pass => pass.sound.1.alpha
  case fullSteps => exact fun takes _ _ h => takes.sound h
  case lastStep => exact fun leaves => leaves.isFinite
  case step =>
    intro solution h
    obtain ⟨-, k, stop, run, ends, hstep, -, -, -, -, hevents, -⟩ := solve_eq_ok h
    rw [hstep, hevents, ends.fullSteps_events rfl]
    exact ends.isLaid.concludes
  case preconditioner =>
    intro k it next run run' pass full infinite
    have advances := yields_advance full.advances
    have hrz : isFinite next.rz = false :=
      Bool.eq_false_iff.mpr fun finite => infinite (advances.vectors finite).2
    obtain ⟨reason, run₂, reviews, hreason⟩ := review_of_infinite pass.sound.1.rz_finite hrz run'
    obtain ⟨solution, hresult, hstep, heq⟩ := solve_of_ends valid (.review pass full reviews)
    exact ⟨solution, hresult, hstep.trans advances.step, heq ▸ hreason⟩
  case operator =>
    intro k it next steered run run₁ run₂ run₃ pass full reviews below steers same infinite
    obtain ⟨run₄, turns⟩ := turn_of_infinite steers same fun finite => infinite finite.2
    obtain ⟨solution, hresult, hstep, hreason⟩ :=
      solve_of_ends valid (.turn pass full reviews below turns)
    exact ⟨solution, hresult, hstep.trans (yields_advance full.advances).step, hreason⟩

/-- An operator that writes nothing but NaN from its second application on. -/
def spoiledOperator (T : Type) [Scalar T] :
    Collaborators (Euclidean T) (Rule T) (Rule T) (Criterion T) :=
  ⟨⟨⟩, .andThen (.scales [1, 1 + 1]) (.fill (0 / 0)), .identity, .never⟩

theorem solve_shields_spoiled :
    (watched.Reachable ∧ watched.Shields (spoiledOperator Float) [1, 1] 5) ∧
      ((watched.solve (spoiledOperator Float) [1, 1] 5).result.toOption.map fun solution =>
        (solution.reason, solution.step.all Scalar.isFinite)) = some (.badOperator, true) ∧
      ∃ solver : Solver Float32, solver.Reachable ∧
        solver.Shields (spoiledOperator Float32) [1, 1] 5 := by
  have created : create (Settings.standard : Settings Float32) =
      .ok { settings := .standard, report := .blank, monitors := [] } := rfl
  refine ⟨⟨reachable_watched, solve_shields reachable_watched _ _ _⟩, ?_,
    _, .create created, solve_shields (.create created) _ _ _⟩
  decide +kernel

end Solver

end TrustRegion
