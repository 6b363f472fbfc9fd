import TrustRegion.Proofs.Exact.Proportion
import TrustRegion.Proofs.Exact.Scaling
import TrustRegion.Proofs.Norms

/-! Two runs side by side, one with the multiples of what the other has: under an operator and a
preconditioner that the factor can be drawn out of, the calls that both make keep it so. -/
namespace TrustRegion

open scoped RealInnerProductSpace
open RunM

variable {n : ℕ} {H P C α α' β β' : Type}

/-- A factor, with an operator and a preconditioner that it can be drawn out of. -/
structure Dilation (n : ℕ) where
  factor : ℝ
  factor_ne_zero : factor ≠ 0
  operator : RealVector n → RealVector n
  preconditioner : RealVector n → RealVector n
  operator_smul : ∀ x, operator (factor • x) = factor • operator x
  preconditioner_smul : ∀ x, preconditioner (factor • x) = factor • preconditioner x

noncomputable section

theorem Dense.combine_smul (c : ℝ) (a : Exact) (x y : RealVector n) :
    Dense.combine a (entries (c • x)) 1 (entries (c • y)) =
      (Dense.combine a (entries x) 1 (entries y)).map (.real c * ·) := by
  have hone : ((1 : Exact) == 0) = false := by simp
  have hentry (i : Fin n) : a * .real (c * x i) + 1 * .real (c * y i) =
      .real c * (a * .real (x i) + 1 * .real (y i)) := by
    rw [Exact.real_mul_add, ← Exact.mul_real_mul, ← Exact.mul_real_mul, Exact.real_mul,
      Exact.real_mul]
  unfold Dense.combine
  simp only [hone, Bool.false_eq_true, ↓reduceIte, zipWith_entries, List.map_ofFn,
    Function.comp_def, ← hentry]
  rfl

def Figures.dilate (c : ℝ) (f : Figures Exact) : Figures Exact :=
  ⟨.real |c| * f.stepNorm, .real (c * c) * f.objective, f.iterations⟩

def dilateNorms (k : ℝ) (norms : List (ℕ × Exact)) : List (ℕ × Exact) :=
  norms.map (Prod.map id (.real k * ·))

variable [ActsOn (List Exact) H] [ActsOn (List Exact) P]

/-- Of two runs with related tests one has come as far as the other, with the multiples of its
figures and residual norms. -/
structure Run.Dilates (L : Dilation n) (J : C → C → Prop)
    (run run' : Run Exact (Euclidean Exact) H P C) : Prop where
  serves : run.Serves L.operator L.preconditioner
  serves' : run'.Serves L.operator L.preconditioner
  test : J run.test run'.test
  figures : run'.figures = run.figures.dilate L.factor
  residuals : Event.residuals run'.latest = dilateNorms |L.factor| (Event.residuals run.latest)

/-- Two computations that succeed after such runs, with results in the relation, and leave such
runs. -/
def RunM.Dilates (L : Dilation n) (J J' : C → C → Prop) (R : α → α' → Prop)
    (m : RunM Exact (Euclidean Exact) H P C α) (m' : RunM Exact (Euclidean Exact) H P C α') :
    Prop :=
  ∀ ⦃run run'⦄, run.Dilates L J run' →
    Run.Paired (fun a a' mid mid' => R a a' ∧ mid.Dilates L J' mid') (fun _ _ _ => False)
      (m run) (m' run')

namespace RunM

variable {L : Dilation n} {J J' J'' : C → C → Prop} {R : α → α' → Prop} {R' : β → β' → Prop}

theorem dilates_pure {a : α} {a' : α'} (h : R a a') :
    Dilates (H := H) (P := P) L J J R (pure a) (pure a') :=
  fun _ _ hrun => ⟨h, hrun⟩

theorem Dilates.bind {m : RunM Exact (Euclidean Exact) H P C α}
    {m' : RunM Exact (Euclidean Exact) H P C α'} {k : α → RunM Exact (Euclidean Exact) H P C β}
    {k' : α' → RunM Exact (Euclidean Exact) H P C β'} (hm : Dilates L J J' R m m')
    (hk : ∀ a a', R a a' → Dilates L J' J'' R' (k a) (k' a')) :
    Dilates L J J'' R' (m >>= k) (m' >>= k') := by
  intro run run' hrun
  exact paired_bind (hm hrun) fun a a' mid mid' _ _ h => hk a a' h.1 h.2

theorem Dilates.imp {S : α → α' → Prop} {m : RunM Exact (Euclidean Exact) H P C α}
    {m' : RunM Exact (Euclidean Exact) H P C α'} (hm : Dilates L J J' R m m')
    (himp : ∀ a a', R a a' → S a a') : Dilates L J J' S m m' := by
  intro run run' h
  obtain ⟨a, mid, a', mid', heq, heq', hR, hmid⟩ | ⟨_, _, _, _, _, hfalse⟩ := (hm h).cases
  · rw [heq, heq']
    exact ⟨himp a a' hR, hmid⟩
  · exact hfalse.elim

theorem Dilates.forget {m : RunM Exact (Euclidean Exact) H P C α}
    {m' : RunM Exact (Euclidean Exact) H P C α'} (hm : Dilates L J J' R m m') :
    Dilates L J (fun _ _ => True) R m m' := by
  intro run run' h
  obtain ⟨a, mid, a', mid', heq, heq', hR, hmid⟩ | ⟨_, _, _, _, _, hfalse⟩ := (hm h).cases
  · rw [heq, heq']
    exact ⟨hR, hmid.serves, hmid.serves', trivial, hmid.figures, hmid.residuals⟩
  · exact hfalse.elim

theorem Dilates.step {v : α} {v' : α'} {m : RunM Exact (Euclidean Exact) H P C α}
    {m' : RunM Exact (Euclidean Exact) H P C α'} {k : α → RunM Exact (Euclidean Exact) H P C β}
    {k' : α' → RunM Exact (Euclidean Exact) H P C β'}
    (hm : Dilates L J J' (fun a a' => a = v ∧ a' = v') m m')
    (hk : Dilates L J' J'' R' (k v) (k' v')) : Dilates L J J'' R' (m >>= k) (m' >>= k') := by
  refine hm.bind ?_
  rintro _ _ ⟨rfl, rfl⟩
  exact hk

section Calls

variable (a : ℝ) (x y : RealVector n)

theorem dilates_called {op : SpaceOp} {v : α} {v' : α'} {m : RunM Exact (Euclidean Exact) H P C α}
    {m' : RunM Exact (Euclidean Exact) H P C α'}
    (hm : ∀ run, m run = .ok v (run.log (.called (.space op) none)))
    (hm' : ∀ run, m' run = .ok v' (run.log (.called (.space op) none))) :
    Dilates L J J (fun a a' => a = v ∧ a' = v') m m' := by
  intro run run' h
  rw [hm, hm']
  exact ⟨⟨rfl, rfl⟩, h.serves.of_eq rfl rfl, h.serves'.of_eq rfl rfl, h.test, h.figures,
    h.residuals⟩

theorem dilates_copy (y' : RealVector n) : Dilates (H := H) (P := P) L J J
    (fun z z' => z = entries x ∧ z' = entries (L.factor • x))
    (copy (entries x) (entries y)) (copy (entries (L.factor • x)) (entries y')) :=
  dilates_called (copy_entries x y) (copy_entries _ y')

theorem dilates_dot : Dilates (H := H) (P := P) L J J
    (fun v v' => v = .real ⟪x, y⟫ ∧ v' = .real (L.factor * L.factor * ⟪x, y⟫))
    (dot (entries x) (entries y)) (dot (entries (L.factor • x)) (entries (L.factor • y))) := by
  refine dilates_called (dot_entries x y) ?_
  rw [← real_inner_smul_smul]
  exact dot_entries _ _

theorem dilates_norm : Dilates (H := H) (P := P) L J J
    (fun v v' => v = .real ‖x‖ ∧ v' = .real |L.factor| * .real ‖x‖)
    (norm (entries x)) (norm (entries (L.factor • x))) := by
  refine dilates_called (norm_entries x) ?_
  rw [Exact.real_mul, ← Real.norm_eq_abs, ← norm_smul]
  exact norm_entries _

theorem dilates_axpy : Dilates (H := H) (P := P) L J J
    (fun z z' => z = entries (y + a • x) ∧ z' = entries (L.factor • (y + a • x)))
    (axpy (.real a) (entries x) (entries y))
    (axpy (.real a) (entries (L.factor • x)) (entries (L.factor • y))) := by
  refine dilates_called (axpy_entries a x y) ?_
  rw [← smul_add_smul_smul]
  exact axpy_entries a _ _

theorem dilates_aypx : Dilates (H := H) (P := P) L J J
    (fun z z' => z = entries (x + a • y) ∧ z' = entries (L.factor • (x + a • y)))
    (aypx (.real a) (entries x) (entries y))
    (aypx (.real a) (entries (L.factor • x)) (entries (L.factor • y))) := by
  refine dilates_called (aypx_entries a x y) ?_
  rw [← smul_add_smul_smul]
  exact aypx_entries a _ _

/-- A last step need not be one of real length. -/
theorem dilates_axpy_last (τ : Exact) : Dilates (H := H) (P := P) L J J
    (fun z z' => z' = z.map (.real L.factor * ·))
    (axpy τ (entries x) (entries y))
    (axpy τ (entries (L.factor • x)) (entries (L.factor • y))) := by
  have haxpy (x y : RealVector n) (run : Run Exact (Euclidean Exact) H P C) :
      axpy τ (entries x) (entries y) run = .ok (Dense.combine τ (entries x) 1 (entries y))
        (run.log (.called (.space .axpy) none)) := by
    simp [axpy, VectorSpace.axpy, Euclidean.axpy, sameLength, Run.ofWritten]
  refine (dilates_called (haxpy x y) (haxpy _ _)).imp ?_
  rintro _ _ ⟨rfl, rfl⟩
  exact Dense.combine_smul _ τ x y

theorem dilates_operate (y' : RealVector n) : Dilates (H := H) (P := P) (C := C) L J J
    (fun z z' => z = entries (L.operator x) ∧ z' = entries (L.factor • L.operator x))
    (operate (entries x) (entries y)) (operate (entries (L.factor • x)) (entries y')) := by
  intro run run' h
  simp only [operate, Run.ofWritten, h.serves.operator _ .refl, h.serves'.operator _ .refl,
    L.operator_smul]
  exact ⟨⟨rfl, rfl⟩, ⟨h.serves.operator.apply x y, h.serves.preconditioner⟩,
    ⟨h.serves'.operator.apply _ y', h.serves'.preconditioner⟩, h.test, h.figures, h.residuals⟩

theorem dilates_precondition (y' : RealVector n) : Dilates (H := H) (P := P) (C := C) L J J
    (fun z z' => z = entries (L.preconditioner x) ∧ z' = entries (L.factor • L.preconditioner x))
    (precondition (entries x) (entries y))
    (precondition (entries (L.factor • x)) (entries y')) := by
  intro run run' h
  simp only [precondition, Run.ofWritten, h.serves.preconditioner _ .refl,
    h.serves'.preconditioner _ .refl, L.preconditioner_smul]
  exact ⟨⟨rfl, rfl⟩, ⟨h.serves.operator, h.serves.preconditioner.apply x y⟩,
    ⟨h.serves'.operator, h.serves'.preconditioner.apply _ y'⟩, h.test, h.figures, h.residuals⟩

end Calls

section Figures

theorem dilates_iterations : Dilates (H := H) (P := P) (C := C) L J J Eq iterations iterations := by
  intro run run' h
  exact ⟨by rw [h.figures]; rfl, h⟩

theorem dilates_note (e e' : Note Exact) :
    Dilates (H := H) (P := P) (C := C) L J J (fun _ _ => True) (note e) (note e') :=
  fun _ _ h => ⟨trivial, h.serves.of_eq rfl rfl, h.serves'.of_eq rfl rfl, h.test, h.figures,
    h.residuals⟩

theorem dilates_countIteration : Dilates (H := H) (P := P) (C := C) L J J (fun _ _ => True)
    countIteration countIteration := by
  intro run run' h
  refine ⟨trivial, h.serves.of_eq rfl rfl, h.serves'.of_eq rfl rfl, h.test, ?_, h.residuals⟩
  rw [h.figures]
  rfl

theorem dilates_setStepNorm (x : Exact) : Dilates (H := H) (P := P) (C := C) L J J (fun _ _ => True)
    (setStepNorm x) (setStepNorm (.real |L.factor| * x)) := by
  intro run run' h
  refine ⟨trivial, h.serves.of_eq rfl rfl, h.serves'.of_eq rfl rfl, h.test, ?_, h.residuals⟩
  rw [h.figures]
  rfl

theorem dilates_mapObjective {φ φ' : Exact → Exact}
    (hφ : ∀ q, φ' (.real (L.factor * L.factor) * q) = .real (L.factor * L.factor) * φ q) :
    Dilates (H := H) (P := P) (C := C) L J J (fun _ _ => True) (mapObjective φ)
      (mapObjective φ') := by
  intro run run' h
  refine ⟨trivial, h.serves.of_eq rfl rfl, h.serves'.of_eq rfl rfl, h.test, ?_, h.residuals⟩
  rw [h.figures]
  exact congrArg (Figures.mk _ · _) (hφ _)

end Figures

end RunM

end

end TrustRegion
