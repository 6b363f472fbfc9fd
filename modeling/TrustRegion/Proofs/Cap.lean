import TrustRegion.Proofs.Comparison

/-! The iteration limit cuts a solve short and does nothing else. -/
namespace TrustRegion

variable {T V S H P C : Type} [Scalar T] [VectorSpace T V S] [ActsOn V H] [ActsOn V P]
  [ConvergenceTest T C]

section Passes

variable {s : Settings T} {rhs : V}

open Run RunM

theorem cutShort_passes (left : Nat) {left' : Nat} (h : left ≤ left') (it : Iterate T V)
    (run : Run T S H P C) :
    CutShort .iterationLimit (passes s left it run) (passes s left' it run) := by
  rw [passes.eq_def s left it, passes.eq_def s left' it]
  refine cutShort_bind fun _ _ _ => cutShort_bind fun _ _ _ => ?_
  by_cases crosses : (s.isConstrained && decide (it.nextSq ≥ s.radiusSq)) = true
  · rw [if_pos crosses, if_pos crosses]
    exact .inl rfl
  · rw [if_neg crosses, if_neg crosses]
    refine cutShort_bind fun next _ _ => cutShort_bind fun outcome mid _ => ?_
    cases outcome with
    | some reason => exact .inl rfl
    | none =>
      cases left with
      | zero =>
        cases left' with
        | zero => exact .inl rfl
        | succ left' =>
          right
          have limit : (do
              note (.iterationLimit (← iterations))
              return ⟨.iterationLimit, next.step⟩ : RunM T S H P C (Stop V)).Silent :=
            .bind .iterations fun _ => .bind (.note _) fun _ => .pure _
          refine ⟨⟨_, _, rfl⟩, limit.behind (.bind (.silent silent_turn) fun phase => ?_) mid⟩
          cases phase with
          | stopped reason step => exact .silent (.pure _)
          | going it => exact composed_passes left' it
      | succ left =>
        obtain ⟨left', rfl⟩ : ∃ more, left' = more + 1 := Nat.exists_eq_succ_of_ne_zero (by omega)
        refine cutShort_bind fun phase mid _ => ?_
        cases phase with
        | stopped reason step => exact .inl rfl
        | going it => exact cutShort_passes left (by omega) it mid

theorem cutShort_iterate {m m' : Nat} (h : m ≤ m') (run : Run T S H P C) :
    CutShort .iterationLimit (iterate s rhs m run) (iterate s rhs m' run) := by
  refine cutShort_bind fun n _ _ => cutShort_bind fun b _ _ => ?_
  by_cases infinite : (!Scalar.isFinite b.rz) = true
  · rw [if_pos infinite, if_pos infinite]
    exact .inl rfl
  · rw [if_neg infinite, if_neg infinite]
    by_cases neg : b.rz < 0
    · rw [if_pos neg, if_pos neg]
      exact .inl rfl
    · rw [if_neg neg, if_neg neg]
      refine cutShort_bind fun phase mid _ => ?_
      cases phase with
      | stopped reason step => exact .inl rfl
      | going it => exact cutShort_passes _ (by omega) it mid

theorem iterate_cap {m m' : Nat} {run : Run T S H P C}
    (h : max 1 (iterationCap rhs m run) = max 1 (iterationCap rhs m' run)) :
    iterate s rhs m run = iterate s rhs m' run := by
  have left : min m (VectorSpace.dimension run.space rhs) - 1 =
      min m' (VectorSpace.dimension run.space rhs) - 1 := by
    unfold iterationCap at h
    omega
  rw [iterate, bind_of_ok (dimension_apply _ _), iterate, bind_of_ok (dimension_apply _ _), left]

end Passes

section Ends

variable {s : Settings T} {rhs : V} {m m' k : Nat} {run₀ run : Run T S H P C} {it : Iterate T V}
  {stop : Stop V}

omit [Scalar T] [ActsOn V H] [ActsOn V P] [ConvergenceTest T C] in
theorem iterationCap_mono (h : m ≤ m') : iterationCap rhs m run₀ ≤ iterationCap rhs m' run₀ := by
  unfold iterationCap
  omega

theorem ReachesPass.raise (pass : ReachesPass s rhs m run₀ k it run) (h : m ≤ m') :
    ReachesPass s rhs m' run₀ k it run := by
  induction pass with
  | first starts finite nonneg goes => exact .first starts finite nonneg goes
  | next _ full reviews below turns ih =>
    exact .next ih full reviews (Nat.lt_of_lt_of_le below (iterationCap_mono h)) turns

variable (s rhs m run₀) in
/-- A solve that begins as `run₀` and stops at its limit after `k` full steps. -/
inductive Exhausted : Nat → Stop V → Run T S H P C → Prop where
  | limit {k : Nat} {it next : Iterate T V} {run run₁ run₂ : Run T S H P C}
      (pass : ReachesPass s rhs m run₀ k it run) (full : FullStep s it run next run₁)
      (reviews : review s it next run₁ = .ok none run₂) :
      Exhausted (k + 1) ⟨.iterationLimit, next.step⟩
        (run₂.log (.noted (.iterationLimit run₂.figures.iterations)))

theorem Ends.raise (ends : Ends s rhs m run₀ k stop run) (h : m ≤ m')
    (going : ¬ Exhausted s rhs m run₀ k stop run) : Ends s rhs m' run₀ k stop run := by
  cases ends with
  | badPreconditioner starts infinite falls => exact .badPreconditioner starts infinite falls
  | indefinitePreconditioner starts finite neg falls =>
    exact .indefinitePreconditioner starts finite neg falls
  | first starts finite nonneg stops => exact .first starts finite nonneg stops
  | boundary pass crosses truncates => exact .boundary (pass.raise h) crosses truncates
  | review pass full stops => exact .review (pass.raise h) full stops
  | limit pass full reviews => exact absurd (.limit pass full reviews) going
  | turn pass full reviews below stops =>
    exact .turn (pass.raise h) full reviews (Nat.lt_of_lt_of_le below (iterationCap_mono h)) stops

end Ends

namespace Solver

/-- How the solves of a system compare that differ in their iteration limits. -/
structure CapShortens (solver : Solver T) (cs : Collaborators S H P C) (rhs : V) : Prop where
  /-- What a solve asks the convergence test it asks first with any greater limit. -/
  asked {m m' : Nat} (h : m ≤ m') :
    Event.evaluations (solver.solve cs rhs m).events <+:
      Event.evaluations (solver.solve cs rhs m').events
  /-- A solve that its limit does not end is that of any greater limit, whether it succeeds or
  not. -/
  same {m m' : Nat} (h : m ≤ m')
    (unlimited : ∀ solution, (solver.solve cs rhs m).result = .ok solution →
      solution.reason ≠ .iterationLimit) :
    solver.solve cs rhs m = solver.solve cs rhs m'
  zero : solver.solve cs rhs 0 = solver.solve cs rhs 1
  /-- No more iterations are allowed than the right-hand side has entries. -/
  dimension {m : Nat} (h : VectorSpace.dimension cs.space rhs ≤ m) :
    solver.solve cs rhs m = solver.solve cs rhs (VectorSpace.dimension cs.space rhs)

variable (solver : Solver T) (cs : Collaborators S H P C) (rhs : V)

theorem solve_of_iterate_eq {m m' : Nat}
    (h : iterate solver.settings rhs m cs.begin = iterate solver.settings rhs m' cs.begin) :
    solver.solve cs rhs m = solver.solve cs rhs m' := by
  have h : iterate solver.settings rhs m { cs with figures := .zero, latest := [] } =
      iterate solver.settings rhs m' { cs with figures := .zero, latest := [] } := h
  unfold solve
  rw [h]

theorem solve_of_cap_eq {m m' : Nat}
    (h : max 1 (iterationCap rhs m cs.begin) = max 1 (iterationCap rhs m' cs.begin)) :
    solver.solve cs rhs m = solver.solve cs rhs m' :=
  solve_of_iterate_eq solver cs rhs (iterate_cap h)

theorem solve_asked {m m' : Nat} (h : m ≤ m') :
    Event.evaluations (solver.solve cs rhs m).events <+:
      Event.evaluations (solver.solve cs rhs m').events := by
  cases valid : solver.settings.validate with
  | error failure => simp [solve, valid]
  | ok _ => exact evaluations_prefix valid valid (cutShort_iterate h cs.begin).behind

theorem solve_same {m m' : Nat} (h : m ≤ m')
    (unlimited : ∀ solution, (solver.solve cs rhs m).result = .ok solution →
      solution.reason ≠ .iterationLimit) :
    solver.solve cs rhs m = solver.solve cs rhs m' := by
  cases valid : solver.settings.validate with
  | error failure => simp [solve, valid]
  | ok _ =>
    rcases cutShort_iterate h cs.begin with heq | ⟨⟨step, run, limited⟩, -⟩
    · exact solve_of_iterate_eq solver cs rhs heq
    · rw [solve_of_ok valid limited] at unlimited
      exact absurd rfl (unlimited _ rfl)

/-- Solves with different iteration limits compare so, whatever the arithmetic and the
collaborators, and whether they succeed or not. -/
theorem cap_shortens : solver.CapShortens cs rhs where
  asked := solve_asked solver cs rhs
  same := solve_same solver cs rhs
  zero := by
    apply solve_of_cap_eq
    unfold iterationCap
    omega
  dimension h := by
    apply solve_of_cap_eq
    show max 1 (min _ (VectorSpace.dimension cs.space rhs)) =
      max 1 (min _ (VectorSpace.dimension cs.space rhs))
    omega

end Solver

end TrustRegion
