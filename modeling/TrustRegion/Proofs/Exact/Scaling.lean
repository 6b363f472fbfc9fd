import TrustRegion.Convergence.Criterion
import TrustRegion.Operator.Rule
import TrustRegion.Proofs.Exact.Totality

/-! Solves with multiples of the identity, as cases that the theorems about solves apply to. -/
namespace TrustRegion

noncomputable section

variable {n : ℕ}

theorem Rule.apply_scale (c : ℝ) (x y : RealVector n) :
    Rule.apply (.scale (.real c)) (entries x) (entries y) =
      ({ content := entries (c • x) }, .scale (.real c)) := by
  simp [Rule.apply, overwrite, entries_smul, List.take_of_length_le, List.drop_of_length_le]

theorem Rule.apply_identity (x y : RealVector n) :
    Rule.apply .identity (entries x) (entries y) = ({ content := entries x }, .identity) := by
  simp [Rule.apply, Identity.apply, Euclidean.copy, sameLength]

theorem Rule.serves_of_apply {rule : Rule Exact} {f : RealVector n → RealVector n}
    (h : ∀ x y : RealVector n,
      rule.apply (entries x) (entries y) = ({ content := entries (f x) }, rule)) :
    Serves f rule := by
  have stays : ∀ rule', Becomes n rule rule' → rule' = rule := by
    intro rule' hbecomes
    induction hbecomes with
    | refl => rfl
    | apply _ x y ih =>
      subst ih
      exact congrArg Prod.snd (h x y)
  intro rule' hbecomes x y
  rw [stays rule' hbecomes]
  exact congrArg Prod.fst (h x y)

theorem Rule.serves_scale (c : ℝ) :
    Serves (fun x : RealVector n => c • x) (Rule.scale (Exact.real c)) :=
  Rule.serves_of_apply (Rule.apply_scale c)

theorem Rule.serves_identity :
    Serves (id : RealVector n → RealVector n) (Rule.identity : Rule Exact) :=
  Rule.serves_of_apply Rule.apply_identity

theorem isSymmetric_smul_id (c : ℝ) :
    (c • LinearMap.id : RealVector n →ₗ[ℝ] RealVector n).IsSymmetric :=
  fun x y => by simp [real_inner_smul_left, real_inner_smul_right]

theorem inner_smul_self_pos {c : ℝ} (hc : 0 < c) (x : RealVector n) (hx : x ≠ 0) :
    0 < inner ℝ x (c • x) := by
  rw [real_inner_smul_right]
  exact mul_pos hc (real_inner_self_pos.mpr hx)

theorem three_four_ne_zero : (!₂[3, 4] : RealVector 2) ≠ 0 := by
  intro hzero
  have := congrArg (· 0) hzero
  simp at this

/-- A solver with a radius and a norm to hold the step against it. -/
def Solver.plain (radius : ℝ) (norm : DirectionNorm) : Solver Exact where
  settings := ⟨.real radius, norm, .unpreconditioned, false⟩
  report := .blank
  monitors := []

/-- The operator `h I` and the preconditioner `p I`, without a convergence test. -/
def Collaborators.scaling (h p : ℝ) :
    Collaborators (Euclidean Exact) (Rule Exact) (Rule Exact) (Criterion Exact) where
  space := ⟨⟩
  operator := .scale (.real h)
  preconditioner := .scale (.real p)
  test := .never

def Collaborators.tested (h p : ℝ) (t : Tolerances Exact) :
    Collaborators (Euclidean Exact) (Rule Exact) (Rule Exact) (ResidualTest Exact) where
  space := ⟨⟩
  operator := .scale (.real h)
  preconditioner := .scale (.real p)
  test := .fresh t

theorem Solver.solve_scaling {radius : ℝ} (hr : 0 ≤ radius) (norm : DirectionNorm) (h p : ℝ)
    (b : RealVector n) (m : ℕ) :
    ∃ solution, ((Solver.plain radius norm).solve (.scaling h p) (entries b) m).result =
      .ok solution := by
  have hradius : 0 ≤ (Solver.plain radius norm).settings.radius := Exact.real_le.mpr hr
  exact Solver.solve_total hradius (Rule.serves_scale h) (Rule.serves_scale p)

end

end TrustRegion
