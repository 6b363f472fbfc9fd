import TrustRegion.Proofs.Exact.Maps
import TrustRegion.Proofs.Exact.Lift
import TrustRegion.Proofs.Finite
import TrustRegion.Proofs.Roots
import TrustRegion.Proofs.Substitution

/-! Solves in exact arithmetic apply their collaborators to vectors of real numbers only, so that
maps which represent one matrix can stand in for each other. -/
namespace TrustRegion

open RunM
open Scalar (isFinite)

noncomputable section

variable {n : ℕ}

theorem Exact.isFinite_of_div {a b : Exact} (h : isFinite (a / b) = true) : isFinite a = true := by
  cases a with
  | real x => rfl
  | undefined => cases b <;> cases h

theorem Exact.isFinite_neg {a : Exact} (h : isFinite a = true) : isFinite (-a) = true := by
  cases a with
  | real x => rfl
  | undefined => cases h

namespace Dense

def IsReal (n : ℕ) (x : List Exact) : Prop := ∃ v : RealVector n, x = entries v

namespace IsReal

variable {x y : List Exact} {a : Exact}

theorem length (h : IsReal n x) : x.length = n := by
  obtain ⟨v, rfl⟩ := h
  exact length_entries v

theorem of_isFinite (finite : IsFinite x) (length : x.length = n) : IsReal n x := by
  obtain ⟨l, rfl⟩ := exists_map_real finite
  exact exists_entries ((List.length_map _).symm.trans length)

theorem zeros (n : ℕ) : IsReal n (Dense.zeros n) := ⟨0, zeros_eq_entries⟩

theorem axpy (ha : isFinite a = true) (hx : IsReal n x) (hy : IsReal n y) :
    IsReal n (combine a x 1 y) := by
  obtain ⟨t, rfl⟩ := Exact.eq_real_of_isFinite ha
  obtain ⟨v, rfl⟩ := hx
  obtain ⟨w, rfl⟩ := hy
  exact ⟨_, combine_one_right t v w⟩

theorem aypx (ha : isFinite a = true) (hx : IsReal n x) (hy : IsReal n y) :
    IsReal n (combine 1 x a y) := by
  obtain ⟨t, rfl⟩ := Exact.eq_real_of_isFinite ha
  obtain ⟨v, rfl⟩ := hx
  obtain ⟨w, rfl⟩ := hy
  exact ⟨_, combine_one_left t v w⟩

end IsReal

end Dense

/-- Applications to `n` real numbers, with a buffer of as many entries. -/
def Proper (n : ℕ) (x y : List Exact) : Prop := Dense.IsReal n x ∧ y.length = n

/-- A start with a real residual, and a real preconditioned one where its product is finite. -/
structure Start.IsReal (n : ℕ) (b : Start Exact (List Exact)) : Prop where
  zero : Dense.IsReal n b.zero
  residual : Dense.IsReal n b.residual
  rr : isFinite b.rr = true
  preconditioned : isFinite b.rz = true → Dense.IsReal n b.preconditioned

structure Probe.IsReal (n : ℕ) (p : Probe Exact (List Exact)) : Prop where
  direction : Dense.IsReal n p.direction
  length : p.product.length = n
  product : isFinite p.curvature = true → Dense.IsReal n p.product

structure Iterate.IsReal (n : ℕ) (it : Iterate Exact (List Exact)) : Prop where
  residual : Dense.IsReal n it.residual
  preconditioned : Dense.IsReal n it.preconditioned
  direction : Dense.IsReal n it.direction
  product : Dense.IsReal n it.product
  alpha : isFinite it.alpha = true

def Phase.IsReal (n : ℕ) : Phase (List Exact) (Iterate Exact (List Exact)) → Prop
  | .stopped _ _ => True
  | .going it => it.IsReal n

/-- A full step to a real residual, and to a real preconditioned one where the product is finite. -/
structure Iterate.AdvancesReal (n : ℕ) (next : Iterate Exact (List Exact)) : Prop where
  residual : Dense.IsReal n next.residual
  preconditioned : isFinite next.rz = true → Dense.IsReal n next.preconditioned

theorem Iterate.isFinite_alpha {it : Iterate Exact (List Exact)} (finite : isFinite it.rz = true)
    (curved : isFinite it.curvature = true) (pos : ¬ it.curvature ≤ 0) :
    isFinite it.alpha = true := by
  obtain ⟨r, hr⟩ := Exact.eq_real_of_isFinite finite
  obtain ⟨c, hc⟩ := Exact.eq_real_of_isFinite curved
  rw [hc] at pos
  have hpos : 0 < c := not_le.mp pos
  rw [alpha, hr, hc, Exact.real_div hpos.ne', Exact.isFinite_real]

section Phases

variable {H P C : Type} [ActsOn (List Exact) H] [ActsOn (List Exact) P] {s : Settings Exact}
  {rhs step scratch x y : List Exact} {a rr : Exact} {b : Start Exact (List Exact)}
  {p : Probe Exact (List Exact)} {it next : Iterate Exact (List Exact)}

/-- A product shows its second vector to be as long as the first, and both to be real if it is
finite. -/
theorem within_dot (hx : x.length = n) :
    (dot x y : RunM Exact (Euclidean Exact) H P C Exact).Within (Proper n)
      fun t => y.length = n ∧ (isFinite t = true → Dense.IsReal n x ∧ Dense.IsReal n y) where
  keeps := (Aloof.dot x y).keeps
  yields run t run' h := by
    have same : y.length = n := (yields_dot_length h).symm.trans hx
    refine ⟨same, fun finite => ?_⟩
    obtain ⟨hfx, hfy⟩ := yields_dot h finite
    exact ⟨.of_isFinite hfx hx, .of_isFinite hfy same⟩

theorem within_axpy (ha : isFinite a = true) (hx : Dense.IsReal n x) (hy : Dense.IsReal n y) :
    (axpy a x y : RunM Exact (Euclidean Exact) H P C (List Exact)).Within (Proper n)
      (Dense.IsReal n) where
  keeps := (Aloof.axpy a x y).keeps
  yields run v run' h := by
    rw [yields_axpy h]
    exact hx.axpy ha hy

theorem within_aypx (ha : isFinite a = true) (hx : Dense.IsReal n x) (hy : Dense.IsReal n y) :
    (aypx a x y : RunM Exact (Euclidean Exact) H P C (List Exact)).Within (Proper n)
      (Dense.IsReal n) where
  keeps := (Aloof.aypx a x y).keeps
  yields run v run' h := by
    rw [yields_aypx h]
    exact hx.aypx ha hy

theorem within_start (hrhs : Dense.IsReal n rhs) :
    (start rhs : RunM Exact (Euclidean Exact) H P C _).Within (Proper n) (Start.IsReal n) := by
  refine .bind ⟨(Aloof.zerosLike rhs).keeps, yields_zerosLike⟩ fun zero hzero => ?_
  rw [hrhs.length] at hzero
  subst hzero
  refine .bind ⟨(Aloof.copy _ _).keeps, yields_copy⟩ fun residual hresidual => ?_
  subst hresidual
  refine .step (Aloof.dot _ _).keeps fun rr => ?_
  split
  · next finite =>
    refine .step (keeps_precondition ⟨hrhs, (Dense.IsReal.zeros n).length⟩) fun preconditioned => ?_
    refine .bind (within_dot hrhs.length) fun rz ⟨_, hrz⟩ => ?_
    exact .pure ⟨.zeros n, hrhs, finite, fun finite => (hrz finite).2⟩
  · exact .throw _

theorem keeps_gradientStep (hr : isFinite s.radius = true) (hrr : isFinite rr = true)
    (hrhs : Dense.IsReal n rhs) (hstep : Dense.IsReal n step) (hscratch : scratch.length = n) :
    (gradientStep s rhs rr step scratch :
      RunM Exact (Euclidean Exact) H P C (List Exact)).Keeps (Run.Substituted (Proper n)) := by
  obtain ⟨ρ, hρ⟩ := Exact.eq_real_of_isFinite hr
  obtain ⟨r, rfl⟩ := Exact.eq_real_of_isFinite hrr
  have length : isFinite (if decide (s.radiusSq ≥ .real r) = true then 1
      else Scalar.sqrt (s.radiusSq / .real r)) = true := by
    obtain ⟨τ, hτ⟩ := Settings.exists_gradientLength hρ r
    rw [hτ, Exact.isFinite_real]
  unfold gradientStep
  split
  · exact (Aloof.pure _).keeps
  · refine (Aloof.setStepNorm _).keeps.bind fun _ => ?_
    refine (within_axpy length hrhs hstep).keeps_bind fun step hstep => ?_
    refine (keeps_operate ⟨hstep, hscratch⟩).bind fun product => ?_
    exact (Aloof.bind (.aypx _ _ _) fun _ => .bind (.dot _ _) fun _ =>
      .bind (.mapObjective _) fun _ => .bind .countIteration fun _ => .pure _).keeps

theorem keeps_fallBack (hr : isFinite s.radius = true) (hrhs : Dense.IsReal n rhs)
    (real : b.IsReal n) (note : Note Exact) (reason : Reason) :
    (do
      RunM.note note
      return ⟨reason, ← gradientStep s rhs b.rr b.zero b.zero⟩ :
        RunM Exact (Euclidean Exact) H P C (Stop (List Exact))).Keeps
          (Run.Substituted (Proper n)) :=
  .bind (Aloof.note _).keeps fun _ =>
    .bind (keeps_gradientStep hr real.rr hrhs real.zero real.zero.length) fun _ =>
      (Aloof.pure _).keeps

theorem keeps_leave (hr : isFinite s.radius = true) (hrr : isFinite rr = true)
    (hrhs : Dense.IsReal n rhs) (hstep : Dense.IsReal n it.step)
    (hproduct : it.product.length = n) :
    (leave s rhs rr it : RunM Exact (Euclidean Exact) H P C (List Exact)).Keeps
      (Run.Substituted (Proper n)) := by
  unfold leave
  split
  · split
    · exact aloof_boundaryStep.keeps
    · exact keeps_gradientStep hr hrr hrhs hstep hproduct
  · exact (Aloof.pure _).keeps

theorem within_probe [ConvergenceTest Exact C] (real : b.IsReal n)
    (finite : isFinite b.rz = true) :
    (probe s b : RunM Exact (Euclidean Exact) H P C _).Within (Proper n) (Probe.IsReal n) := by
  have hdirection := real.preconditioned finite
  unfold probe
  refine .step aloof_residualNorm.keeps fun _ => .step (keeps_judge _ _) fun _ =>
    .step (Aloof.note _).keeps fun _ => ?_
  refine .bind ⟨(Aloof.copy _ _).keeps, yields_copy⟩ fun direction hcopy => ?_
  subst hcopy
  refine .step (keeps_operate ⟨hdirection, real.zero.length⟩) fun product => ?_
  refine .step Aloof.countIteration.keeps fun _ => ?_
  refine .bind (within_dot hdirection.length) fun curvature ⟨same, hcurvature⟩ => ?_
  exact .pure ⟨hdirection, same, fun finite => (hcurvature finite).2⟩

theorem within_depart (hr : isFinite s.radius = true) (hrhs : Dense.IsReal n rhs)
    (real : b.IsReal n) (finite : isFinite b.rz = true) (probed : p.IsReal n) :
    (depart s rhs b p : RunM Exact (Euclidean Exact) H P C _).Within (Proper n)
      (Phase.IsReal n) := by
  unfold depart
  split
  · exact .step (Aloof.note _).keeps fun _ =>
      .step (keeps_gradientStep hr real.rr hrhs real.zero probed.length) fun _ => .pure trivial
  · next curved =>
    have curved : isFinite p.curvature = true := by simpa using curved
    refine .step aloof_measure.keeps fun directionSq => ?_
    split
    · exact .step (Aloof.note _).keeps fun _ =>
        .step (keeps_leave hr real.rr hrhs real.zero probed.length) fun _ => .pure trivial
    · next pos =>
      exact .pure ⟨real.residual, real.preconditioned finite, probed.direction,
        probed.product curved, Iterate.isFinite_alpha finite curved pos⟩

theorem within_advance (real : it.IsReal n) :
    (advance s it : RunM Exact (Euclidean Exact) H P C _).Within (Proper n)
      (Iterate.AdvancesReal n) := by
  have hneg := Exact.isFinite_neg real.alpha
  rw [advance_eq]
  refine .step (Aloof.axpy _ _ _).keeps fun _ => ?_
  refine .bind (within_axpy hneg real.product real.residual) fun residual hresidual => ?_
  refine .step (keeps_precondition ⟨hresidual, real.preconditioned.length⟩) fun z => ?_
  refine .step aloof_trackStep.keeps fun _ => .step (Aloof.setStepNorm _).keeps fun _ =>
    .step (Aloof.mapObjective _).keeps fun _ => ?_
  refine .bind (within_dot hresidual.length) fun rz ⟨_, hrz⟩ => ?_
  exact .pure ⟨hresidual, fun finite => (hrz finite).2⟩

/-- A finite coefficient is one of finite products, so that the new direction is real. -/
theorem within_turn (real : it.IsReal n) (advanced : next.AdvancesReal n)
    (regular : isFinite (it.beta next) = true) :
    (turn s it next : RunM Exact (Euclidean Exact) H P C _).Within (Proper n)
      (Phase.IsReal n) := by
  have finite : isFinite next.rz = true := Exact.isFinite_of_div regular
  have hz := advanced.preconditioned finite
  rw [turn_eq]
  refine .bind (within_aypx regular hz real.direction) fun direction hdirection => ?_
  refine .step aloof_trackTurn.keeps fun _ => ?_
  refine .step (keeps_operate ⟨hdirection, real.product.length⟩) fun product => ?_
  refine .bind (within_dot hdirection.length) fun curvature ⟨_, hcurvature⟩ => ?_
  refine .step Aloof.countIteration.keeps fun _ => ?_
  split
  · exact .step (Aloof.note _).keeps fun _ => .pure trivial
  · next curved =>
    have curved : isFinite curvature = true := by simpa using curved
    split
    · exact .step (Aloof.note _).keeps fun _ => .pure trivial
    · next pos =>
      exact .pure ⟨advanced.residual, hz, hdirection, (hcurvature curved).2,
        Iterate.isFinite_alpha finite curved pos⟩

theorem keeps_passes [ConvergenceTest Exact C] (remaining : ℕ) {it : Iterate Exact (List Exact)}
    (real : it.IsReal n) :
    (passes s remaining it : RunM Exact (Euclidean Exact) H P C _).Keeps
      (Run.Substituted (Proper n)) := by
  rw [passes.eq_def]
  refine Aloof.iterations.keeps.bind fun _ => (Aloof.note _).keeps.bind fun _ => ?_
  split
  · exact (Aloof.bind aloof_truncate fun _ => .pure _).keeps
  · refine (within_advance real).keeps_bind fun next advanced => ?_
    refine Within.keeps_bind ⟨keeps_review, yields_review⟩ fun outcome goes => ?_
    cases outcome with
    | some reason => exact (Aloof.pure _).keeps
    | none =>
      obtain ⟨-, regular, -⟩ := goes rfl
      cases remaining with
      | zero => exact (Aloof.bind .iterations fun _ => .bind (.note _) fun _ => .pure _).keeps
      | succ remaining =>
        refine (within_turn real advanced regular).keeps_bind fun phase hphase => ?_
        cases phase with
        | stopped reason step => exact (Aloof.pure _).keeps
        | going it => exact keeps_passes remaining hphase

/-- All that a solve for real numbers applies its collaborators to are real numbers. -/
theorem keeps_iterate [ConvergenceTest Exact C] (hr : isFinite s.radius = true)
    (hrhs : Dense.IsReal n rhs) (m : ℕ) :
    (iterate s rhs m : RunM Exact (Euclidean Exact) H P C _).Keeps
      (Run.Substituted (Proper n)) := by
  refine (Aloof.dimension rhs).keeps.bind fun _ => ?_
  refine (within_start hrhs).keeps_bind fun b real => ?_
  split
  · exact keeps_fallBack hr hrhs real _ _
  · next finite =>
    have finite : isFinite b.rz = true := by simpa using finite
    split
    · exact keeps_fallBack hr hrhs real _ _
    · rw [first_eq, bind_assoc]
      refine (within_probe real finite).keeps_bind fun p probed => ?_
      refine (within_depart hr hrhs real finite probed).keeps_bind fun phase hphase => ?_
      cases phase with
      | stopped reason step => exact (Aloof.pure _).keeps
      | going it => exact keeps_passes _ hphase

end Phases

/-- A solve does not change with its collaborators as long as these answer alike for real
numbers. -/
theorem Solver.solve_exchanges {H P C : Type} [ActsOn (List Exact) H] [ActsOn (List Exact) P]
    [ConvergenceTest Exact C] (solver : Solver Exact) {operator operator' : H}
    {preconditioner preconditioner' : P} (test : C) (b : RealVector n) (m : ℕ)
    (hH : Substitutes (Proper n) operator operator')
    (hP : Substitutes (Proper n) preconditioner preconditioner') :
    (solver.solve (S := Euclidean Exact) ⟨⟨⟩, operator, preconditioner, test⟩ (entries b) m).Repeats
      (solver.solve (S := Euclidean Exact) ⟨⟨⟩, operator', preconditioner', test⟩
        (entries b) m) := by
  let cs : Collaborators (Euclidean Exact) H P C := ⟨⟨⟩, operator, preconditioner, test⟩
  have hH : Substitutes (Proper n) cs.operator operator' := hH
  refine solve_repeats_of_keeps (fun valid => ?_) hH hP
  have fits : (solver.settings.subproblem b m (fun _ _ => True) fun _ _ => True).Fits
      solver.settings := Settings.subproblem_fits valid
  have hr : isFinite solver.settings.radius = true := by rw [fits.radius, Exact.isFinite_real]
  exact keeps_iterate hr ⟨b, rfl⟩ m

namespace Rule

variable {m : ℕ} {rule rule' : Rule Exact}

/-- Rules that accept the same applications to `n` entries and write the same for real ones. -/
structure MatchesOn (n : ℕ) (rule rule' : Rule Exact) : Prop where
  accepts (x y : List Exact) (hx : x.length = n) :
    (rule.apply x y).1.failure? = none ↔ (rule'.apply x y).1.failure? = none
  writes (x : RealVector n) (y : List Exact)
    (succeeded : (rule.apply (entries x) y).1.failure? = none) :
    (rule.apply (entries x) y).1 = (rule'.apply (entries x) y).1

theorem Represents.accepts_iff {a : Fin m → Fin n → ℝ} (h : rule.Represents a)
    {x y : List Exact} (hx : x.length = n) :
    (rule.apply x y).1.failure? = none ↔ y.length = m := by
  rw [h.maps.atomic.ok_iff, hx]
  constructor
  · exact h.maps.unique
  · rintro rfl
    exact h.maps

theorem Represents.matchesOn {a : Fin m → Fin n → ℝ} (h : rule.Represents a)
    (h' : rule'.Represents a) : rule.MatchesOn n rule' where
  accepts x y hx := by rw [h.accepts_iff hx, h'.accepts_iff hx]
  writes x y succeeded := by
    have hy : y.length = m := (h.accepts_iff (length_entries x)).mp succeeded
    rw [h.apply_entries x hy, h'.apply_entries x hy]

theorem Represents.substitutes {a : Fin n → Fin n → ℝ} (h : rule.Represents a)
    (h' : rule'.Represents a) : Substitutes (Proper n) rule rule' := by
  refine .of_stays h.maps.atomic.stays h'.maps.atomic.stays ?_
  rintro _ y ⟨⟨x, rfl⟩, hy⟩
  show (rule.apply (entries x) y).1 = (rule'.apply (entries x) y).1
  rw [h.apply_entries x hy, h'.apply_entries x hy]

/-- A dense matrix that is diagonal accepts no other applications than the diagonal does. -/
theorem matchesOn_diag (d : RealVector n) (k : ℕ) :
    (dense (.ofReal (diag d))).MatchesOn k (diagonal ⟨entries d⟩) where
  accepts x y _ := by
    have rows : (Matrix.ofReal (diag d)).rows.length = n := List.length_ofFn
    rw [(Represents.dense (diag d)).maps.atomic.ok_iff, (Represents.diagonal d).maps.atomic.ok_iff,
      maps_dense_iff, maps_diagonal_iff, length_entries, rows]
    exact and_congr eq_comm eq_comm
  writes x y succeeded := by
    have fits := ((Represents.dense (diag d)).maps.atomic.ok_iff _ _).mp succeeded
    rw [maps_dense_iff, length_entries] at fits
    obtain rfl : n = k := fits.1
    exact ((Represents.dense (diag d)).matchesOn (.diagonal d)).writes x y succeeded

theorem exists_jacobi_ones (n : ℕ) :
    ∃ J, Jacobi.ofDiagonal (List.replicate n (1 : Exact)) = .ok J ∧
      (jacobi J).Represents (diag (1 : Fin n → ℝ)) := by
  let ones : RealVector n := WithLp.toLp 2 1
  have hones : List.replicate n (1 : Exact) = entries ones := by
    simp [entries, ones, List.ofFn_const]
  obtain ⟨J, hJ⟩ : ∃ J, Jacobi.ofDiagonal (entries ones) = .ok J :=
    ⟨_, Jacobi.ofDiagonal_entries_iff.mpr ⟨fun i => one_ne_zero, rfl⟩⟩
  have represents := Represents.jacobi hJ
  have reciprocals : (fun i => 1 / ones i) = 1 := by
    funext i
    exact one_div_one
  rw [reciprocals] at represents
  rw [← hones] at hJ
  exact ⟨J, hJ, represents⟩

theorem exists_jacobi_ofMatrix (a : Fin n → Fin n → ℝ) (nonzero : ∀ i, a i i ≠ 0) :
    ∃ J, Jacobi.ofMatrix (.ofReal a) = .ok J ∧
      Jacobi.ofDiagonal (Matrix.ofReal a).diagonal = .ok J ∧
      (jacobi J).Represents (diag fun i => 1 / a i i) := by
  have square : (Matrix.ofReal a).rows.length = (Matrix.ofReal a).columns := List.length_ofFn
  let d : RealVector n := WithLp.toLp 2 fun i => a i i
  obtain ⟨J, hJ⟩ : ∃ J, Jacobi.ofDiagonal (entries d) = .ok J :=
    ⟨_, Jacobi.ofDiagonal_entries_iff.mpr ⟨nonzero, rfl⟩⟩
  have hdiagonal := hJ
  rw [← Matrix.diagonal_ofReal] at hdiagonal
  exact ⟨J, (Jacobi.ofMatrix_eq square).trans hdiagonal, hdiagonal, .jacobi hJ⟩

/-- The shipped maps are linear maps that fail without a trace, and solves cannot tell apart those
that represent one matrix. -/
theorem maps_faithful :
    (∀ (T : Type) [Scalar T] (rule : Rule T) (n m : ℕ), rule.Maps n m → rule.Atomic) ∧
    (∀ (T : Type) [Scalar T] (A : Matrix T) (x y : List T),
      (dense A).Maps x.length y.length →
        (dense A).apply x y = ({ content := A.sweep x }, dense A)) ∧
    (∀ (m n : ℕ) (rule : Rule Exact) (a : Fin m → Fin n → ℝ), rule.Represents a →
      ∀ (x : RealVector n) (y : List Exact), y.length = m →
        rule.apply (entries x) y = ({ content := entries (multiply a x) }, rule)) ∧
    (∀ (n k : ℕ) (d : RealVector n),
      (dense (.ofReal (diag d))).MatchesOn k (diagonal ⟨entries d⟩)) ∧
    (∀ n : ℕ, ∃ J, Jacobi.ofDiagonal (List.replicate n (1 : Exact)) = .ok J ∧
      (jacobi J).Represents (diag (1 : Fin n → ℝ)) ∧ identity.MatchesOn n (jacobi J)) ∧
    (∀ (n : ℕ) (a : Fin n → Fin n → ℝ), (∀ i, a i i ≠ 0) →
      ∃ J, Jacobi.ofMatrix (.ofReal a) = .ok J ∧
        Jacobi.ofDiagonal (Matrix.ofReal a).diagonal = .ok J ∧
        (jacobi J).Represents (diag fun i => 1 / a i i)) ∧
    ∀ (n m : ℕ) (solver : Solver Exact) (b : RealVector n) (A C : Type)
      [ActsOn (List Exact) A] [ConvergenceTest Exact C] (other : A) (test : C)
      (rule rule' : Rule Exact) (a : Fin n → Fin n → ℝ), rule.Represents a → rule'.Represents a →
      (solver.solve (S := Euclidean Exact) ⟨⟨⟩, rule, other, test⟩ (entries b) m).Repeats
          (solver.solve (S := Euclidean Exact) ⟨⟨⟩, rule', other, test⟩ (entries b) m) ∧
        (solver.solve (S := Euclidean Exact) ⟨⟨⟩, other, rule, test⟩ (entries b) m).Repeats
          (solver.solve (S := Euclidean Exact) ⟨⟨⟩, other, rule', test⟩ (entries b) m) := by
  refine ⟨fun T _ rule n m h => h.atomic, fun T _ A x y fits => ?_,
    fun m n rule a h x y => h.apply_entries x, fun n k d => matchesOn_diag d k, fun n => ?_,
    fun n a => exists_jacobi_ofMatrix a, ?_⟩
  · rw [(applies_dense A).fitting x y fits, A.sweep_eq_times (maps_dense_iff.mp fits).1.symm]
  · obtain ⟨J, hJ, represents⟩ := exists_jacobi_ones n
    exact ⟨J, hJ, represents, (Represents.identity n).matchesOn represents⟩
  · intro n m solver b A C _ _ other test rule rule' a h h'
    exact ⟨solver.solve_exchanges test b m (h.substitutes h') (.refl _ other),
      solver.solve_exchanges test b m (.refl _ other) (h.substitutes h')⟩

/-- A matrix and a diagonal of both signs lead to the same solution. -/
theorem maps_faithful_saddle :
    ∃ solution,
      ((Solver.plain 1 .unpreconditioned).solve (S := Euclidean Exact)
        ⟨⟨⟩, dense (.ofReal (diag (!₂[2, -4] : RealVector 2))), (identity : Rule Exact),
          (Criterion.never : Criterion Exact)⟩ (entries !₂[2, 1]) 5).result = .ok solution ∧
      ((Solver.plain 1 .unpreconditioned).solve (S := Euclidean Exact)
        ⟨⟨⟩, diagonal ⟨entries !₂[2, -4]⟩, (identity : Rule Exact),
          (Criterion.never : Criterion Exact)⟩ (entries !₂[2, 1]) 5).result = .ok solution := by
  have hr : 0 ≤ (Solver.plain 1 .unpreconditioned).settings.radius :=
    Exact.real_le.mpr zero_le_one
  let d : RealVector 2 := !₂[2, -4]
  obtain ⟨-, -, -, -, -, -, exchange⟩ := maps_faithful
  have repeats := (exchange 2 5 (Solver.plain 1 .unpreconditioned) !₂[2, 1] (Rule Exact)
    (Criterion Exact) identity .never _ _ (diag d) (.dense (diag d)) (.diagonal d)).1
  let cs : Collaborators (Euclidean Exact) (Rule Exact) (Rule Exact) (Criterion Exact) :=
    ⟨⟨⟩, diagonal ⟨entries d⟩, identity, .never⟩
  have hH : Serves (multiply (diag d)) cs.operator := (Represents.diagonal d).serves
  have hP : Serves (id : RealVector 2 → RealVector 2) cs.preconditioner := serves_identity
  obtain ⟨solution, h⟩ := Solver.solve_total (b := !₂[2, 1]) (m := 5) hr hH hP
  exact ⟨solution, repeats.result.trans h, h⟩

end Rule

end

end TrustRegion
