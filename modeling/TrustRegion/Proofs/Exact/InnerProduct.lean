import TrustRegion.Proofs.Exact.Vector

/-! The space of lists in exact arithmetic: its product is the inner product of real vectors, its
updates are linear combinations, and vectors of different lengths are refused. -/
namespace TrustRegion

open scoped RealInnerProductSpace

namespace Euclidean

section Lengths

variable {T : Type} [Scalar T]

inductive Update (T : Type) where
  | copy
  | axpy (a : T)
  | aypx (a : T)
  | axpby (a b : T)

def Update.perform (s : Euclidean T) (x y : List T) : Update T → Written (List T)
  | copy => (VectorSpace.copy s x y).1
  | axpy a => (VectorSpace.axpy s a x y).1
  | aypx a => (VectorSpace.aypx s a x y).1
  | axpby a b => (VectorSpace.axpby s a x b y).1

/-- Every update compares the lengths before it writes. -/
theorem Update.exists_perform_eq (s : Euclidean T) (x y : List T) (update : Update T) :
    ∃ content, update.perform s x y = sameLength x y content := by
  cases update <;> exact ⟨_, rfl⟩

/-- Operations on two vectors fail exactly if these differ in length. -/
structure ChecksLengths (s : Euclidean T) : Prop where
  dot_of_length (x y : List T) (same : x.length = y.length) :
    ∃ a, (VectorSpace.dot s x y).1 = .ok a
  dot_of_length_ne (x y : List T) (differ : x.length ≠ y.length) :
    (VectorSpace.dot s x y).1 = .error (.dimensionMismatch s!"{x.length}" s!"{y.length}")
  update_of_length (update : Update T) (x y : List T) (same : x.length = y.length) :
    (update.perform s x y).failure? = none
  update_of_length_ne (update : Update T) (x y : List T) (differ : x.length ≠ y.length) :
    update.perform s x y =
      { content := y, failure? := some (.dimensionMismatch s!"{x.length}" s!"{y.length}") }

theorem checksLengths (s : Euclidean T) : s.ChecksLengths := by
  constructor
  case dot_of_length => exact fun x y same => ⟨_, if_pos same⟩
  case dot_of_length_ne => exact fun x y differ => if_neg differ
  case update_of_length =>
    intro update x y same
    obtain ⟨content, h⟩ := update.exists_perform_eq s x y
    rw [h, sameLength, if_pos same]
  case update_of_length_ne =>
    intro update x y differ
    obtain ⟨content, h⟩ := update.exists_perform_eq s x y
    rw [h, sameLength, if_neg differ]
    rfl

end Lengths

/-- The laws of a real inner product space, for vectors of `n` entries. -/
structure InnerProductLaws (s : Euclidean Exact) (n : ℕ) : Prop where
  dot_eq_sum (x y : RealVector n) :
    (VectorSpace.dot s (entries x) (entries y)).1 = .ok (.real (∑ i, x i * y i))
  dot_comm (x y : RealVector n) :
    (VectorSpace.dot s (entries x) (entries y)).1 = (VectorSpace.dot s (entries y) (entries x)).1
  dot_axpby (a b : ℝ) (x y z : RealVector n) (p q : ℝ)
    (hp : (VectorSpace.dot s (entries x) (entries z)).1 = .ok (.real p))
    (hq : (VectorSpace.dot s (entries y) (entries z)).1 = .ok (.real q)) :
      (VectorSpace.dot s (VectorSpace.axpby s (.real a) (entries x) (.real b) (entries y)).1.content
        (entries z)).1 = .ok (.real (a * p + b * q))
  dot_self (x : RealVector n) :
    ∃ p, (VectorSpace.dot s (entries x) (entries x)).1 = .ok (.real p) ∧ 0 ≤ p ∧ (p = 0 ↔ x = 0)
  axpy_eq (a : ℝ) (x y : RealVector n) :
    (VectorSpace.axpy s (.real a) (entries x) (entries y)).1 =
      { content := List.ofFn fun i => .real (y i + a * x i) }
  aypx_eq (a : ℝ) (x y : RealVector n) :
    (VectorSpace.aypx s (.real a) (entries x) (entries y)).1 =
      { content := List.ofFn fun i => .real (x i + a * y i) }
  axpby_eq (a b : ℝ) (x y : RealVector n) :
    (VectorSpace.axpby s (.real a) (entries x) (.real b) (entries y)).1 =
      { content := List.ofFn fun i => .real (a * x i + b * y i) }
  /-- Under a zero coefficient the buffer may hold anything, undefined entries included. -/
  axpby_zero (a : ℝ) (x : RealVector n) (y : List Exact) (same : n = y.length) :
    (VectorSpace.axpby s (.real a) (entries x) (.real 0) y).1 =
      { content := List.ofFn fun i => .real (a * x i) }
  aypx_zero (x : RealVector n) (y : List Exact) (same : n = y.length) :
    (VectorSpace.aypx s (.real 0) (entries x) y).1 = { content := entries x }
  norm_two (x : RealVector n) :
    ∃ r, (VectorSpace.norm s (entries x) .two).1 = .ok (.real r) ∧ 0 ≤ r ∧
      (VectorSpace.dot s (entries x) (entries x)).1 = .ok (.real (r ^ 2))

variable {n : ℕ} (s : Euclidean Exact) (a b : ℝ) (x y : RealVector n)

theorem dot_entries :
    (VectorSpace.dot s (entries x) (entries y)).1 = .ok (.real ⟪x, y⟫) := by
  show Euclidean.dot (entries x) (entries y) = _
  rw [Euclidean.dot, if_pos (by simp), Dense.dot_entries]

theorem axpby_entries :
    (VectorSpace.axpby s (.real a) (entries x) (.real b) (entries y)).1 =
      { content := entries (a • x + b • y) } := by
  show Euclidean.axpby (.real a) (entries x) (.real b) (entries y) = _
  rw [Euclidean.axpby, sameLength, if_pos (by simp), Dense.combine_entries]

theorem innerProductLaws (n : ℕ) : s.InnerProductLaws n where
  dot_eq_sum x y := by
    rw [dot_entries, PiLp.inner_apply]
    simp [mul_comm]
  dot_comm x y := by rw [dot_entries, dot_entries, real_inner_comm]
  dot_axpby a b x y z p q hp hq := by
    rw [dot_entries] at hp hq
    cases hp
    cases hq
    rw [axpby_entries, dot_entries, inner_add_left, real_inner_smul_left, real_inner_smul_left]
  dot_self x := ⟨⟪x, x⟫, dot_entries s x x, real_inner_self_nonneg, inner_self_eq_zero⟩
  axpy_eq a x y := by
    show Euclidean.axpy (.real a) (entries x) (entries y) = _
    rw [Euclidean.axpy, sameLength, if_pos (by simp)]
    congr 1
    rw [Exact.one_eq, Dense.combine_one_right]
    rfl
  aypx_eq a x y := by
    show Euclidean.aypx (.real a) (entries x) (entries y) = _
    rw [Euclidean.aypx, sameLength, if_pos (by simp)]
    congr 1
    rw [Exact.one_eq, Dense.combine_one_left]
    rfl
  axpby_eq a b x y := axpby_entries s a b x y
  axpby_zero a x y same := by
    show Euclidean.axpby (.real a) (entries x) (.real 0) y = _
    rw [Euclidean.axpby, sameLength, if_pos (by simpa using same), Dense.combine_zero,
      ← entries_smul]
    rfl
  aypx_zero x y same := by
    show Euclidean.aypx (.real 0) (entries x) y = _
    rw [Euclidean.aypx, sameLength, if_pos (by simpa using same), Exact.one_eq,
      Dense.combine_zero, ← entries_smul, one_smul]
  norm_two x := by
    refine ⟨‖x‖, ?_, norm_nonneg x, ?_⟩
    · show Except.ok (Dense.norm (entries x) .two) = _
      rw [Dense.norm_entries]
    · rw [dot_entries, real_inner_self_eq_norm_sq]

/-- In exact arithmetic, lists are an inner product space whatever their length, and the operations
on two of them fail exactly if these differ in length. -/
theorem isInnerProductSpace :
    (∀ n, s.InnerProductLaws n) ∧ s.ChecksLengths :=
  ⟨s.innerProductLaws, s.checksLengths⟩

/-- Nine entries fill a block and leave one over. -/
theorem isInnerProductSpace_nine :
    (VectorSpace.dot (Euclidean.mk : Euclidean Exact) (List.replicate 9 (.real 2))
        (List.replicate 9 (.real 2))).1 = .ok (.real 36) ∧
      (VectorSpace.axpy (Euclidean.mk : Euclidean Exact) (.real 2) [.real 1, .real 1]
        [Exact.undefined]).1 =
        { content := [.undefined], failure? := some (.dimensionMismatch "2" "1") } := by
  have replicated : List.replicate 9 (Exact.real 2) =
      entries (WithLp.toLp 2 fun _ : Fin 9 => (2 : ℝ)) := by
    rw [entries, ← List.ofFn_const]
  constructor
  · rw [replicated, ((isInnerProductSpace _).1 9).dot_eq_sum]
    norm_num
  · exact (isInnerProductSpace _).2.update_of_length_ne (.axpy (.real 2)) _ _ (by decide)

end Euclidean

end TrustRegion
