import TrustRegion.Convergence.Criterion
import TrustRegion.Proofs.Exact.Lift

/-! Multiples of a subproblem: vectors are multiplied by a number, lengths by its absolute value and
products by its square. The recurrences keep it so, and the residual test is none the wiser. -/
namespace TrustRegion

open scoped RealInnerProductSpace

noncomputable section

namespace Exact

section

variable (k : ℝ) (a b : Exact)

theorem real_mul_add : real k * (a + b) = real k * a + real k * b := by
  cases a with
  | undefined => rfl
  | real x =>
    cases b with
    | undefined => rfl
    | real y => exact congrArg real (mul_add k x y)

theorem real_mul_sub : real k * (a - b) = real k * a - real k * b := by
  cases a with
  | undefined => rfl
  | real x =>
    cases b with
    | undefined => rfl
    | real y => exact congrArg real (mul_sub k x y)

theorem mul_real_mul : a * (real k * b) = real k * (a * b) := by
  cases a with
  | undefined => rfl
  | real x =>
    cases b with
    | undefined => rfl
    | real y => exact congrArg real (mul_left_comm x k y)

theorem isFinite_real_mul : Scalar.isFinite (real k * a) = Scalar.isFinite a := by
  cases a <;> rfl

end

variable {k c x : ℝ} {a b : Exact}

theorem real_mul_lt (hk : 0 < k) : real k * a < real k * b ↔ a < b := by
  cases a with
  | undefined => exact Iff.rfl
  | real x =>
    cases b with
    | undefined => exact Iff.rfl
    | real y => exact mul_lt_mul_iff_right₀ hk

theorem real_mul_le (hk : 0 < k) : real k * a ≤ real k * b ↔ a ≤ b := by
  cases a with
  | undefined => exact Iff.rfl
  | real x =>
    cases b with
    | undefined => exact Iff.rfl
    | real y => exact mul_le_mul_iff_right₀ hk

theorem larger_real_mul (hk : 0 < k) :
    Scalar.larger (real k * a) (real k * b) = real k * Scalar.larger a b := by
  cases a with
  | undefined => rfl
  | real x =>
    cases b with
    | undefined => rfl
    | real y => simp only [real_mul, larger_real, mul_max_of_nonneg _ _ hk.le]

theorem real_mul_div (hk : k ≠ 0) : real k * a / (real k * b) = a / b := by
  cases a with
  | undefined => rfl
  | real x =>
    cases b with
    | undefined => rfl
    | real y =>
      by_cases hy : y = 0
      · simp only [hy, real_mul, mul_zero, real_div_zero]
      · rw [real_mul, real_mul, real_div (mul_ne_zero hk hy), real_div hy, mul_div_mul_left _ _ hk]

theorem sqrt_mul_self_mul (hc : c ≠ 0) :
    Scalar.sqrt (real (c * c) * a) = real |c| * Scalar.sqrt a := by
  have hcc : 0 < c * c := mul_self_pos.mpr hc
  cases a with
  | undefined => rfl
  | real x =>
    by_cases hx : 0 ≤ x
    · rw [real_mul, sqrt_real (mul_nonneg hcc.le hx), sqrt_real hx, real_mul,
        Real.sqrt_mul hcc.le, Real.sqrt_mul_self_eq_abs]
    · have hneg : ¬ 0 ≤ c * c * x := fun h => hx (nonneg_of_mul_nonneg_right h hcc)
      have hroot (y : ℝ) (hy : ¬ 0 ≤ y) : Scalar.sqrt (real y) = undefined := if_neg hy
      rw [real_mul, hroot _ hneg, hroot x hx]
      rfl

end Exact

namespace Iterate

variable {E : Type} [NormedAddCommGroup E] [InnerProductSpace ℝ E]

/-- The iterate for `c` times the right-hand side. -/
def dilate (c : ℝ) (it : Iterate ℝ E) : Iterate ℝ E where
  step := c • it.step
  residual := c • it.residual
  preconditioned := c • it.preconditioned
  direction := c • it.direction
  product := c • it.product
  rz := c * c * it.rz
  curvature := c * c * it.curvature
  stepSq := c * c * it.stepSq
  cross := c * c * it.cross
  directionSq := c * c * it.directionSq

end Iterate

def Start.dilate {E : Type} [NormedAddCommGroup E] [InnerProductSpace ℝ E] (c : ℝ)
    (b : Start ℝ E) : Start ℝ E where
  zero := c • b.zero
  residual := c • b.residual
  preconditioned := c • b.preconditioned
  rr := c * c * b.rr
  rz := c * c * b.rz

section

variable {E : Type} [NormedAddCommGroup E] [InnerProductSpace ℝ E]

theorem real_inner_smul_smul (c : ℝ) (x y : E) : ⟪c • x, c • y⟫ = c * c * ⟪x, y⟫ := by
  rw [real_inner_smul_left, real_inner_smul_right, mul_assoc]

theorem smul_add_smul_smul (c a : ℝ) (x y : E) : c • y + a • c • x = c • (y + a • x) := by
  rw [smul_comm a c x, smul_add]

namespace Iterate

variable {c : ℝ} {it next : Iterate ℝ E}

variable (hc : c ≠ 0)

include hc

theorem fullLength_dilate : (it.dilate c).fullLength = it.fullLength :=
  mul_div_mul_left _ _ (mul_self_ne_zero.mpr hc)

theorem fullSq_dilate : (it.dilate c).fullSq = c * c * it.fullSq := by
  rw [fullSq, fullLength_dilate hc, fullSq]
  simp only [dilate]
  ring

end Iterate

end

theorem modelChange_dilate (c : ℝ) (τ : Exact) (κ rz : ℝ) :
    modelChange τ (.real (c * c * κ)) (.real (c * c * rz)) =
      .real (c * c) * modelChange τ (.real κ) (.real rz) := by
  cases τ with
  | undefined => rfl
  | real τ =>
    simp only [modelChange, Exact.half_eq, Exact.real_mul, Exact.real_sub]
    congr 1
    ring

def Settings.dilate (k : ℝ) (s : Settings Exact) : Settings Exact :=
  { s with radius := .real k * s.radius }

section

variable {s : Settings Exact} {c : ℝ}

theorem Settings.radiusSq_dilate : (s.dilate |c|).radiusSq = .real (c * c) * s.radiusSq := by
  unfold radiusSq dilate
  cases s.radius with
  | undefined => rfl
  | real ρ =>
    simp only [Exact.real_mul]
    rw [mul_mul_mul_comm, abs_mul_abs_self]

theorem Settings.isConstrained_dilate (hc : c ≠ 0) :
    (s.dilate |c|).isConstrained = s.isConstrained := by
  have hzero : (0 : Exact) = .real |c| * 0 := by simp
  unfold isConstrained dilate
  rw [decide_eq_decide, gt_iff_lt, gt_iff_lt, hzero, Exact.real_mul_lt (abs_pos.mpr hc), ← hzero]

theorem Settings.radius_eq_zero_dilate (hc : c ≠ 0) :
    ((s.dilate |c|).radius == 0) = (s.radius == 0) := by
  unfold dilate
  cases s.radius with
  | undefined => rfl
  | real ρ => simp [hc]

theorem Settings.le_radiusSq_dilate (hc : c ≠ 0) (x : Exact) :
    .real (c * c) * x ≤ (s.dilate |c|).radiusSq ↔ x ≤ s.radiusSq := by
  rw [radiusSq_dilate, Exact.real_mul_le (mul_self_pos.mpr hc)]

theorem Settings.radiusSq_dilate_le (hc : c ≠ 0) (x : Exact) :
    (s.dilate |c|).radiusSq ≤ .real (c * c) * x ↔ s.radiusSq ≤ x := by
  rw [radiusSq_dilate, Exact.real_mul_le (mul_self_pos.mpr hc)]

theorem Settings.radiusSq_dilate_div (hc : c ≠ 0) (x : Exact) :
    (s.dilate |c|).radiusSq / (.real (c * c) * x) = s.radiusSq / x := by
  rw [radiusSq_dilate, Exact.real_mul_div (mul_self_ne_zero.mpr hc)]

theorem Settings.gradientNorm_dilate (hc : c ≠ 0) (inside : Bool) (rr : Exact) :
    (if inside = true then Scalar.sqrt (.real (c * c) * rr) else (s.dilate |c|).radius) =
      .real |c| * (if inside = true then Scalar.sqrt rr else s.radius) := by
  cases inside with
  | true => exact Exact.sqrt_mul_self_mul hc
  | false => rfl

variable {n : ℕ} {it : Iterate ℝ (RealVector n)}

theorem Iterate.alpha_dilate (hc : c ≠ 0) (curved : 0 < it.curvature) :
    (it.dilate c).lift.alpha = .real it.fullLength := by
  have curved' : 0 < (it.dilate c).curvature := mul_pos (mul_self_pos.mpr hc) curved
  rw [alpha_lift curved'.ne', fullLength_dilate hc]

theorem Iterate.nextSq_dilate (hc : c ≠ 0) (curved : 0 < it.curvature) :
    (it.dilate c).lift.nextSq = .real (c * c) * it.lift.nextSq := by
  have curved' : 0 < (it.dilate c).curvature := mul_pos (mul_self_pos.mpr hc) curved
  rw [nextSq_lift curved'.ne', nextSq_lift curved.ne', fullSq_dilate hc, Exact.real_mul]

/-- The length of a cut is the same, also where it is none. -/
theorem Iterate.boundary_dilate (hc : c ≠ 0) {ρ : ℝ} (hρ : s.radius = .real ρ) :
    (it.dilate c).lift.boundary (s.dilate |c|) = it.lift.boundary s := by
  have hcc : c * c ≠ 0 := mul_self_ne_zero.mpr hc
  have hradiusSq : s.radiusSq = .real (ρ * ρ) := by rw [Settings.radiusSq, hρ, Exact.real_mul]
  have hradiusSq' : (s.dilate |c|).radiusSq = .real (c * c * (ρ * ρ)) := by
    rw [Settings.radiusSq_dilate, hradiusSq, Exact.real_mul]
  have hdisc : c * c * it.cross * (c * c * it.cross) +
      c * c * it.directionSq * (c * c * (ρ * ρ) - c * c * it.stepSq) =
        c * c * (c * c) * (it.cross * it.cross + it.directionSq * (ρ * ρ - it.stepSq)) := by
    ring
  have hroot (x : ℝ) : Scalar.sqrt (Exact.real (c * c * (c * c) * x)) =
      .real (c * c) * Scalar.sqrt (.real x) := by
    rw [← Exact.real_mul, Exact.sqrt_mul_self_mul hcc, abs_mul_self]
  have hmul (x : ℝ) : Exact.real (c * c * x) = .real (c * c) * .real x := rfl
  simp only [boundary, hradiusSq, hradiusSq', lift, dilate, Exact.real_mul, Exact.real_sub,
    Exact.real_add, hdisc, hroot]
  rw [hmul it.cross, hmul it.directionSq, ← Exact.real_mul_sub, Exact.real_mul_div hcc]

end

namespace ResidualTest

variable {k : ℝ} {test test' : ResidualTest Exact}

/-- The test after a first question about `k` times the norm. -/
def dilate (k : ℝ) (test : ResidualTest Exact) : ResidualTest Exact :=
  { test with initial := .real k * test.initial, target := .real k * test.target }

theorem judge_dilate (hk : 0 < k) (h : test.tolerances.atol = 0) (x : Exact) :
    (test.dilate k).judge (.real k * x) = test.judge x := by
  have hzero : (0 : Exact) = .real k * 0 := congrArg Exact.real (mul_zero k).symm
  have hbelow : .real k * x < 0 ↔ x < 0 := by
    rw [hzero, Exact.real_mul_lt hk, ← hzero]
  unfold judge dilate
  simp only [Exact.isFinite_real_mul, Exact.real_mul_le hk, Exact.mul_real_mul, h, hbelow,
    ge_iff_le]

/-- Without an absolute tolerance the target is a multiple of the first norm. -/
theorem evaluate_zero_dilate (hk : 0 < k) (h : test.tolerances.atol = 0) (x : Exact) :
    test.evaluate 0 (.real k * x) = (.iterating, (test.evaluate 0 x).2.dilate k) := by
  have hzero : (0 : Exact) = .real k * 0 := congrArg Exact.real (mul_zero k).symm
  have htarget : Scalar.larger (test.tolerances.rtol * (.real k * x)) 0 =
      .real k * Scalar.larger (test.tolerances.rtol * x) 0 := by
    rw [Exact.mul_real_mul, hzero, Exact.larger_real_mul hk, ← hzero]
  simp only [evaluate, dilate, h, htarget, ↓reduceIte]

theorem evaluate_dilate (hk : 0 < k) (h : test.tolerances.atol = 0) (i : ℕ) (x : Exact) :
    (test.dilate k).evaluate i (.real k * x) =
      ((test.evaluate i x).1, (test.evaluate i x).2.dilate k) := by
  by_cases hi : i = 0
  · subst hi
    have first := evaluate_zero_dilate hk h x
    simp only [evaluate, ↓reduceIte] at first ⊢
    exact first
  · simp only [evaluate, hi, ↓reduceIte, judge_dilate hk h]

end ResidualTest

end

end TrustRegion
