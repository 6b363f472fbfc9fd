import TrustRegion.Proofs.Exact.Vector
import TrustRegion.Proofs.Ieee.Values

/-! The infinity norm: it finds a NaN wherever one stands and is else the largest absolute value,
without any rounding. In exact arithmetic it agrees with the Euclidean norm up to the square root
of the dimension. -/
namespace TrustRegion

open Scalar (isNaN)

section Exact

theorem Exact.exists_eq_real {a : Exact} (number : isNaN a = false) : ∃ x, a = real x := by
  cases a with
  | real x => exact ⟨x, rfl⟩
  | undefined => cases number

noncomputable instance : ExtendedReal Exact where
  value a := (a.toReal : EReal)
  isNaN_zero := rfl
  value_zero := rfl
  lt_iff ha hb := by
    obtain ⟨x, rfl⟩ := Exact.exists_eq_real ha
    obtain ⟨y, rfl⟩ := Exact.exists_eq_real hb
    exact EReal.coe_lt_coe_iff.symm
  le_iff ha hb := by
    obtain ⟨x, rfl⟩ := Exact.exists_eq_real ha
    obtain ⟨y, rfl⟩ := Exact.exists_eq_real hb
    exact EReal.coe_le_coe_iff.symm
  isNaN_abs a := by cases a <;> rfl
  value_abs a := by
    rw [EReal.coe_abs]
    cases a with
    | real x => rfl
    | undefined => rw [Exact.toReal, abs_zero]; rfl
  abs_of_value_eq_zero ha h := by
    obtain ⟨x, rfl⟩ := Exact.exists_eq_real ha
    rw [Exact.abs_real, show x = 0 from EReal.coe_eq_zero.mp h, abs_zero]
    rfl

variable {n : ℕ} (x : RealVector n)

theorem mem_entries {b : Exact} : b ∈ entries x ↔ ∃ i, b = .real (x i) := by
  rw [entries, List.mem_ofFn]
  exact exists_congr fun i => eq_comm

theorem isNaN_of_mem_entries (b : Exact) (hb : b ∈ entries x) : isNaN b = false := by
  obtain ⟨i, rfl⟩ := (mem_entries x).mp hb
  rfl

/-- The largest absolute value of a real vector lies between its entries and its Euclidean norm. -/
theorem exists_largest_entries :
    ∃ r, Dense.largest 0 (entries x) = .real r ∧ 0 ≤ r ∧ r ≤ ‖x‖ ∧ ∀ i, |x i| ≤ r := by
  obtain ⟨abs_le, attained, -⟩ := Dense.isLargest_largest (isNaN_of_mem_entries x)
  obtain ⟨r, hr, nonneg, below⟩ :
      ∃ r, Dense.largest 0 (entries x) = .real r ∧ 0 ≤ r ∧ r ≤ ‖x‖ := by
    obtain ⟨-, h⟩ | ⟨b, hb, h⟩ := attained
    · exact ⟨0, h, le_rfl, norm_nonneg x⟩
    · obtain ⟨i, rfl⟩ := (mem_entries x).mp hb
      exact ⟨|x i|, h, abs_nonneg _, PiLp.norm_apply_le x i⟩
  refine ⟨r, hr, nonneg, below, fun i => ?_⟩
  have bounded := abs_le _ ((mem_entries x).mpr ⟨i, rfl⟩)
  rw [hr] at bounded
  exact Exact.real_le.mp bounded

theorem norm_le_sqrt_mul {r : ℝ} (nonneg : 0 ≤ r) (h : ∀ i, |x i| ≤ r) : ‖x‖ ≤ √n * r := by
  have spread := (EuclideanSpace.basisFun (Fin n) ℝ).norm_le_card_mul_iSup_norm_inner x
  simp only [EuclideanSpace.basisFun_inner, Fintype.card_fin] at spread
  exact spread.trans (mul_le_mul_of_nonneg_left (Real.iSup_le h nonneg) (Real.sqrt_nonneg _))

end Exact

namespace Euclidean

/-- For floating-point vectors of any length the infinity norm is a NaN exactly if some entry is,
and else their largest absolute value, infinite ones included. For real vectors it is below the
Euclidean norm, by a factor of the square root of the dimension at most. -/
theorem norm_infinity_exact {T : Type} [Scalar T] [CanonicalIeee T] (s : Euclidean T)
    (s' : Euclidean Exact) :
    (∀ x : List T, ∃ a, (VectorSpace.norm s x .infinity).1 = .ok a ∧
      (isNaN a = true ↔ ∃ b ∈ x, isNaN b = true) ∧
      ((∀ b ∈ x, isNaN b = false) → Dense.IsLargest x a)) ∧
    ∀ n (x : RealVector n), ∃ r t, (VectorSpace.norm s' (entries x) .infinity).1 = .ok (.real r) ∧
      (VectorSpace.norm s' (entries x) .two).1 = .ok (.real t) ∧ r ≤ t ∧ t ≤ √n * r := by
  constructor
  · intro x
    exact ⟨Dense.largest 0 x, rfl, Dense.isNaN_largest ExtendedReal.isNaN_zero,
      Dense.isLargest_largest⟩
  · intro n x
    obtain ⟨r, hr, nonneg, below, bounded⟩ := exists_largest_entries x
    refine ⟨r, ‖x‖, congrArg Except.ok hr, ?_, below, norm_le_sqrt_mul x nonneg bounded⟩
    exact congrArg Except.ok (Dense.norm_entries x)

/-- An infinite entry after a negative zero, and a NaN between two numbers. -/
theorem norm_infinity_exact_mixed :
    ((∀ b ∈ ([-0, -1 / 0, 1] : List Float), isNaN b = false) ∧
      Dense.IsLargest [-0, -1 / 0, 1] (1 / 0 : Float)) ∧
    (∃ b ∈ ([1, 0 / 0, -3] : List Float32), isNaN b = true) ∧
      ∃ a, (VectorSpace.norm (Euclidean.mk : Euclidean Float32) [1, 0 / 0, -3] .infinity).1 =
        .ok a ∧ isNaN a = true := by
  have numbers : ∀ b ∈ ([-0, -1 / 0, 1] : List Float), isNaN b = false := by decide
  have nan : ∃ b ∈ ([1, 0 / 0, -3] : List Float32), isNaN b = true := ⟨0 / 0, by simp, by decide⟩
  obtain ⟨a, ha, -, largest⟩ := (norm_infinity_exact (T := Float) ⟨⟩ ⟨⟩).1 [-0, -1 / 0, 1]
  obtain ⟨a', ha', isNaN_iff, -⟩ := (norm_infinity_exact (T := Float32) ⟨⟩ ⟨⟩).1 [1, 0 / 0, -3]
  obtain rfl : a = 1 / 0 := Except.ok.inj (ha.symm.trans rfl)
  exact ⟨⟨numbers, largest numbers⟩, nan, a', ha', isNaN_iff.mpr nan⟩

end Euclidean

end TrustRegion
