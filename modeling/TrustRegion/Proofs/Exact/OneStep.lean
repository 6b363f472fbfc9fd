import TrustRegion.Proofs.Exact.Certificate
import TrustRegion.Proofs.Exact.Maps

/-! Preconditioners that are exact: where the operator takes the preconditioned right-hand side back
to the right-hand side, the first full step solves the system, and the solve ends there. -/
namespace TrustRegion

open scoped RealInnerProductSpace

noncomputable section

section Real

variable {E : Type} [NormedAddCommGroup E] [InnerProductSpace ℝ E]

/-- The square of the norm in which a step `z` is held against the radius, where `z` is the
preconditioned form of `b`. -/
def DirectionNorm.square (norm : DirectionNorm) (b z : E) : ℝ :=
  match norm with
  | .preconditioned => ⟪b, z⟫
  | .unpreconditioned => ‖z‖ ^ 2

namespace Subproblem

variable {Q : Subproblem E} {f g : E → E} {k : ℕ} {it : Iterate ℝ E} {q : ℝ}

theorem Stops.ne_indefinitePreconditioner {k i : ℕ} {it next : Iterate ℝ E} {reason : Reason}
    (h : Q.Stops k it next reason i) (nonneg : 0 ≤ next.rz) :
    reason ≠ .indefinitePreconditioner := by
  cases h with
  | indefinite neg => exact absurd neg nonneg.not_gt
  | converged | diverged | breakdown | limit | curvature => exact Reason.noConfusion

/-- A subproblem for an operator `f`, the preconditioner `g` of which is exact for its right-hand
side, and positive there. -/
structure Inverts (Q : Subproblem E) (f g : E → E) : Prop where
  acts : ∀ x w, Q.Acts x w → w = f x
  answers : ∀ r z, Q.Preconditions r z → z = g r
  inverse : f (g Q.rhs) = Q.rhs
  definite : 0 < ⟪Q.rhs, g Q.rhs⟫

/-- The iterate of its first pass: the product of the first direction is the right-hand side. -/
def exactOpening (Q : Subproblem E) (g : E → E) : Iterate ℝ E :=
  .opening Q.norm Q.rhs (g Q.rhs) Q.rhs

theorem exactOpening_directionSq :
    (Q.exactOpening g).directionSq = Q.norm.square Q.rhs (g Q.rhs) := by
  unfold exactOpening Iterate.opening DirectionNorm.square
  cases Q.norm with
  | preconditioned => rfl
  | unpreconditioned => exact real_inner_self_eq_norm_sq _

theorem exactOpening_boundaryLength {ρ : ℝ} (nonneg : 0 ≤ ρ) (long : 0 < Q.norm.square Q.rhs (g Q.rhs)) :
    (Q.exactOpening g).boundaryLength ρ = ρ / √(Q.norm.square Q.rhs (g Q.rhs)) := by
  have hcross : (Q.exactOpening g).cross = 0 := rfl
  have hstep : (Q.exactOpening g).stepSq = 0 := rfl
  rw [Iterate.boundaryLength, exactOpening_directionSq, hcross, hstep, mul_zero, zero_add, sub_zero,
    sub_zero, Real.sqrt_mul long.le, Real.sqrt_mul_self nonneg, mul_comm, mul_div_assoc,
    Real.sqrt_div_self, ← div_eq_mul_inv]

namespace Inverts

variable (inverts : Q.Inverts f g)

include inverts

theorem product_eq {z w : E} (hz : Q.Opens z) (hw : Q.Acts z w) : z = g Q.rhs ∧ w = Q.rhs := by
  obtain rfl := inverts.answers _ _ (Q.opens_le z hz)
  obtain rfl := inverts.acts _ _ hw
  exact ⟨rfl, inverts.inverse⟩

theorem fullLength : (Q.exactOpening g).fullLength = 1 := by
  have hcurvature : (Q.exactOpening g).curvature = (Q.exactOpening g).rz := real_inner_comm _ _
  rw [Iterate.fullLength, hcurvature]
  exact div_self inverts.definite.ne'

theorem nextResidual : (Q.exactOpening g).nextResidual = 0 := by
  rw [Iterate.nextResidual, inverts.fullLength, one_smul]
  exact sub_self Q.rhs

theorem nextStep : (Q.exactOpening g).nextStep = g Q.rhs := by
  rw [Iterate.nextStep, inverts.fullLength, one_smul]
  exact zero_add (g Q.rhs)

theorem fullSq : (Q.exactOpening g).fullSq = Q.norm.square Q.rhs (g Q.rhs) := by
  rw [Iterate.fullSq, inverts.fullLength, exactOpening_directionSq]
  simp [exactOpening, Iterate.opening]

theorem rz_stepped (z : E) : ((Q.exactOpening g).stepped Q.norm z).rz = 0 := by
  show ⟪(Q.exactOpening g).nextResidual, z⟫ = 0
  rw [inverts.nextResidual, inner_zero_left]

theorem eq_opening (h : Q.Reaches k it q) : k = 0 ∧ q = 0 ∧ it = Q.exactOpening g := by
  induction h with
  | first hz hw =>
    obtain ⟨rfl, rfl⟩ := inverts.product_eq hz hw
    exact ⟨rfl, rfl, rfl⟩
  | @next k it q z w _ _ _ _ pos _ _ _ ih =>
    obtain ⟨-, -, rfl⟩ := ih
    exact absurd (inverts.rz_stepped z) pos.ne'

/-- The only full step is taken, and the solve ends after it, or it is cut off at the boundary. -/
theorem ends {reason : Reason} {x : E} {F : Figures ℝ} (nonneg : 0 ≤ Q.radius)
    (h : Q.Ends k reason x F) : F.iterations = 1 ∧
      (k = 0 ∧ 0 < Q.radius ∧ Q.radius * Q.radius ≤ Q.norm.square Q.rhs (g Q.rhs) ∧
          reason = .constrainedStep ∧
          x = (Q.radius / √(Q.norm.square Q.rhs (g Q.rhs))) • g Q.rhs ∨
        k = 1 ∧ (0 < Q.radius → Q.norm.square Q.rhs (g Q.rhs) < Q.radius * Q.radius) ∧
          reason ≠ .constrainedStep ∧ x = g Q.rhs ∧
          F.objective = -(1 / 2) * ⟪Q.rhs, g Q.rhs⟫) := by
  have curved {z w : E} (hz : Q.Opens z) (hw : Q.Acts z w) : ¬ ⟪z, w⟫ ≤ 0 := by
    obtain ⟨rfl, rfl⟩ := inverts.product_eq hz hw
    rw [real_inner_comm, not_le]
    exact inverts.definite
  cases h with
  | indefinite hz neg =>
    obtain rfl := inverts.answers _ _ (Q.opens_le _ hz)
    exact absurd inverts.definite neg.not_gt
  | leaves hz _ hw flat => exact absurd flat (curved hz hw)
  | fallsBack hz _ hw flat => exact absurd flat (curved hz hw)
  | boundary pass constrained crosses length =>
    obtain ⟨rfl, rfl, rfl⟩ := inverts.eq_opening pass
    rw [inverts.fullSq] at crosses
    have long : 0 < Q.norm.square Q.rhs (g Q.rhs) :=
      (mul_pos constrained constrained).trans_le crosses
    rw [length, exactOpening_boundaryLength nonneg long]
    exact ⟨rfl, .inl ⟨rfl, constrained, crosses, rfl, zero_add _⟩⟩
  | @inside k i it q z reason pass inside hz stops =>
    obtain ⟨rfl, rfl, rfl⟩ := inverts.eq_opening pass
    have hrz := inverts.rz_stepped z
    have iterations : i = 1 := by
      cases stops with
      | indefinite | converged | diverged | breakdown => rfl
      | limit _ pos => exact absurd hrz pos.ne'
      | curvature _ pos => exact absurd hrz pos.ne'
    have within : 0 < Q.radius → Q.norm.square Q.rhs (g Q.rhs) < Q.radius * Q.radius := by
      intro constrained
      rw [← inverts.fullSq]
      exact inside constrained
    refine ⟨iterations, .inr ⟨rfl, within, stops.ne_constrainedStep, inverts.nextStep, ?_⟩⟩
    show 0 - 1 / 2 * (Q.exactOpening g).fullLength * ⟪Q.rhs, g Q.rhs⟫ = _
    rw [inverts.fullLength]
    ring

end Inverts

end Subproblem

end Real

section Solve

variable {n m : ℕ} {H P C : Type} [ActsOn (List Exact) H] [ActsOn (List Exact) P]
  [ConvergenceTest Exact C] {s : Settings Exact} {f g : RealVector n → RealVector n}

/-- What the test answers about iteration 1 where that has left no residual. -/
def Settings.secondAnswer (s : Settings Exact) (g : RealVector n → RealVector n) (b : RealVector n)
    (test : C) : Verdict :=
  (ConvergenceTest.evaluate
    (ConvergenceTest.evaluate test 0 (.real (s.residualNorm.measure g b))).2 1
    (.real (s.residualNorm.measure g 0))).1

/-- The full step ends the solve with the verdict about it, or for the lack of a residual. -/
theorem Ends.reason_of_inverts {Q : Subproblem (RealVector n)}
    {run₀ run : Run Exact (Euclidean Exact) H P C} {stop : Stop (List Exact)}
    (inverts : Q.Inverts f g) (fits : Q.Fits s) (hcap : Q.cap = min m n) (begins : run₀.Begins Q)
    (ends : Ends s (entries Q.rhs) m run₀ 1 stop run) (uncut : stop.reason ≠ .constrainedStep) :
    stop.reason = (s.secondAnswer g Q.rhs run₀.test).reason?.getD .breakdown := by
  obtain ⟨it, next, run₁, run₂, run₃, outcome, pass, full, reviews, -, -, hend⟩ :=
    ends.reviewed uncut
  have htest : run₁.test =
      (ConvergenceTest.evaluate run₀.test 0 (.real (s.residualNorm.measure g Q.rhs))).2 := by
    cases pass with
    | first starts _ nonneg goes => exact begins.first_asks inverts.answers starts nonneg goes
  obtain ⟨it, q, reach, rfl, hrun, hf⟩ := pass.exists_reaches fits hcap begins
  obtain ⟨-, -, rfl⟩ := inverts.eq_opening reach
  obtain ⟨-, hasked⟩ := full.asks fits inverts.answers reach hrun hf reviews
  obtain ⟨-, z, -, rfl, -, -, hstops⟩ := full.reviewed_lift fits reviews reach hrun hf
  have hrz := inverts.rz_stepped z
  cases outcome with
  | none => exact absurd hrz hstops.2.ne'
  | some reason =>
    have hstops : Q.Stops 0 (Q.exactOpening g) ((Q.exactOpening g).stepped Q.norm z) reason 1 :=
      hstops
    obtain hend | ⟨hend, -⟩ := hend
    · obtain rfl : reason = stop.reason := Option.some.inj hend
      obtain hindefinite | ⟨verdict, -, heq, hout⟩ := hasked
      · exact absurd (Option.some.inj hindefinite) (hstops.ne_indefinitePreconditioner hrz.ge)
      · rw [htest, inverts.nextResidual] at heq
        have hverdict : s.secondAnswer g Q.rhs run₀.test = verdict := congrArg Prod.fst heq
        rw [hverdict]
        obtain hout | ⟨rfl, hout⟩ := hout
        · rw [← hout]
          rfl
        · exact Option.some.inj hout
    · cases hend

/-- The solution of a solve for `b` with the exact preconditioner `g`. -/
structure Solution.IsExact (s : Settings Exact) (test : C) (g : RealVector n → RealVector n)
    (b : RealVector n) (solution : Solution Exact (List Exact)) : Prop where
  iterations : solution.iterations = 1
  inside (h : s.radius.toReal = 0 ∨ s.directionNorm.square b (g b) < s.radius.toReal ^ 2) :
    solution.step = entries (g b) ∧ solution.objective = .real (-(1 / 2) * ⟪b, g b⟫) ∧
      solution.reason = (s.secondAnswer g b test).reason?.getD .breakdown
  cut (constrained : s.radius.toReal ≠ 0)
    (crosses : s.radius.toReal ^ 2 ≤ s.directionNorm.square b (g b)) :
      solution.reason = .constrainedStep ∧
        solution.step = entries ((s.radius.toReal / √(s.directionNorm.square b (g b))) • g b)

theorem Solver.solve_isExact {solver : Solver Exact} {cs : Collaborators (Euclidean Exact) H P C}
    {b : RealVector n} (valid : solver.settings.validate = .ok ()) (hH : Serves f cs.operator)
    (hP : Serves g cs.preconditioner) (inverse : f (g b) = b) (definite : 0 < ⟪b, g b⟫) :
    ∃ solution, (solver.solve cs (entries b) m).result = .ok solution ∧
      solution.IsExact solver.settings cs.test g b := by
  let Q := solver.settings.subproblem b m (fun x w => w = f x) fun r z => z = g r
  have inverts : Q.Inverts f g := ⟨fun _ _ h => h, fun _ _ h => h, inverse, definite⟩
  have fits : Q.Fits solver.settings := Settings.subproblem_fits valid
  have obeys : cs.begin.Obeys (fun x w => w = f x) fun r z => z = g r :=
    ⟨hH.computes.answers, hP.computes.answers⟩
  have begins := obeys.begins (s := solver.settings) (b := b) (m := m) rfl
  have radius : solver.settings.radius = .real solver.settings.radius.toReal := fits.radius
  have hr : 0 ≤ solver.settings.radius := by
    rw [radius]
    exact fits.nonneg
  obtain ⟨solution, h⟩ := Solver.solve_total (b := b) (m := m) hr hH hP
  obtain ⟨-, k, stop, run, ends, hstep, hreason, -, hobjective, hiterations, -⟩ := solve_eq_ok h
  obtain ⟨x, F, real, hx, hF⟩ := ends.exists_ends fits rfl begins
  obtain ⟨once, outcome⟩ := inverts.ends fits.nonneg real
  have iterations : solution.iterations = 1 := by
    rw [hiterations, hF]
    exact once
  obtain ⟨-, constrained, crosses, cut, rfl⟩ | ⟨rfl, within, uncut, rfl, hvalue⟩ := outcome
  · rw [← pow_two] at crosses
    refine ⟨solution, h, iterations, ?_, fun _ _ => ⟨hreason.trans cut, hstep.trans hx⟩⟩
    rintro (free | short)
    · exact absurd free constrained.ne'
    · exact absurd crosses short.not_ge
  · refine ⟨solution, h, iterations, fun _ => ⟨hstep.trans hx, ?_, ?_⟩, ?_⟩
    · rw [hobjective, hF]
      exact congrArg Exact.real hvalue
    · exact hreason.trans (Ends.reason_of_inverts inverts fits rfl begins ends uncut)
    · intro constrained crosses
      have short := within (lt_of_le_of_ne fits.nonneg (Ne.symm constrained))
      rw [← pow_two] at short
      exact absurd crosses short.not_ge

end Solve

section Diagonal

variable {n : ℕ}

theorem multiply_diag_inverse {d : RealVector n} (nonzero : ∀ i, d i ≠ 0) (x : RealVector n) :
    multiply (diag d) (multiply (diag fun i => 1 / d i) x) = x := by
  rw [multiply_diag, multiply_diag]
  ext i
  show d i * (1 / d i * x i) = x i
  rw [← mul_assoc, mul_one_div_cancel (nonzero i), one_mul]

theorem inner_multiply_diag_inverse (d x : RealVector n) :
    ⟪x, multiply (diag fun i => 1 / d i) x⟫ = ∑ i, x i ^ 2 / d i := by
  rw [multiply_diag, PiLp.inner_apply]
  refine Finset.sum_congr rfl fun i _ => ?_
  show 1 / d i * x i * x i = x i ^ 2 / d i
  ring

/-- An exact preconditioner ends a solve after one iteration, whatever the operator is, and the
inverse of its diagonal is exact for a diagonal operator. -/
theorem Solver.solve_in_one_step {C : Type} [ConvergenceTest Exact C] {solver : Solver Exact}
    (valid : solver.settings.validate = .ok ()) (test : C) (b : RealVector n) (m : ℕ) :
    (∀ (H P : Type) [ActsOn (List Exact) H] [ActsOn (List Exact) P] (operator : H)
      (preconditioner : P) (f g : RealVector n → RealVector n), Serves f operator →
      Serves g preconditioner → f (g b) = b → 0 < ⟪b, g b⟫ →
      ∃ solution, (solver.solve (S := Euclidean Exact) ⟨⟨⟩, operator, preconditioner, test⟩
          (entries b) m).result = .ok solution ∧
        solution.IsExact solver.settings test g b) ∧
    ∀ d : RealVector n, (∀ i, d i ≠ 0) → 0 < ∑ i, b i ^ 2 / d i →
      ∃ J, Jacobi.ofDiagonal (entries d) = .ok J ∧
        ∃ solution, (solver.solve (S := Euclidean Exact)
            ⟨⟨⟩, Rule.diagonal ⟨entries d⟩, Rule.jacobi J, test⟩ (entries b) m).result =
              .ok solution ∧
          solution.IsExact solver.settings test (multiply (diag fun i => 1 / d i)) b := by
  refine ⟨fun H P _ _ operator preconditioner f g hH hP inverse definite =>
    Solver.solve_isExact valid hH hP inverse definite, fun d nonzero definite => ?_⟩
  have hJ := Jacobi.ofDiagonal_entries_iff.mpr ⟨nonzero, rfl⟩
  refine ⟨_, hJ, Solver.solve_isExact valid (Rule.Represents.diagonal d).serves
    (Rule.Represents.jacobi hJ).serves (multiply_diag_inverse nonzero b) ?_⟩
  rw [inner_multiply_diag_inverse]
  exact definite

/-- A diagonal operator of both signs, without a radius. -/
theorem Solver.solve_in_one_step_saddle :
    ∃ J, Jacobi.ofDiagonal (entries !₂[2, -4]) = .ok J ∧
      ∃ solution, ((Solver.plain 0 .unpreconditioned).solve (S := Euclidean Exact)
          ⟨⟨⟩, Rule.diagonal ⟨entries !₂[2, -4]⟩, Rule.jacobi J,
            (Criterion.never : Criterion Exact)⟩
          (entries !₂[2, 1]) 0).result = .ok solution ∧
        solution.iterations = 1 ∧ solution.step = entries !₂[1, -(1 / 4)] ∧
        solution.reason = .breakdown := by
  have valid : (Solver.plain 0 .unpreconditioned).settings.validate = .ok () := by
    simp [Settings.validate, Settings.checkRadius, Solver.plain]
  have nonzero : ∀ i, (!₂[2, -4] : RealVector 2) i ≠ 0 := by
    simp [Fin.forall_fin_two]
  have definite : 0 < ∑ i, (!₂[2, 1] : RealVector 2) i ^ 2 / (!₂[2, -4] : RealVector 2) i := by
    simp [Fin.sum_univ_two]
    norm_num
  obtain ⟨J, hJ, solution, h, whole⟩ := (Solver.solve_in_one_step valid
    (Criterion.never : Criterion Exact) !₂[2, 1] 0).2 !₂[2, -4] nonzero definite
  obtain ⟨hstep, -, hreason⟩ := whole.inside (.inl rfl)
  have inverted : multiply (diag fun i => 1 / (!₂[2, -4] : RealVector 2) i) !₂[2, 1] =
      !₂[1, -(1 / 4)] := by
    rw [multiply_diag]
    ext i
    fin_cases i <;> simp
  rw [inverted] at hstep
  exact ⟨J, hJ, solution, h, whole.iterations, hstep, hreason⟩

end Diagonal

end

end TrustRegion
