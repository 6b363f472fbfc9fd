import Mathlib
import TrustRegion.Space.Euclidean

/-! The largest absolute value of a list of scalars that stand for extended real numbers, as it is
found by one pass from left to right, and the NaN that ends the pass. -/
namespace TrustRegion

open Scalar (isNaN larger)
open scoped ENNReal

/-- Scalars that are compared as the extended real numbers that they stand for, NaNs apart. -/
class ExtendedReal (T : Type) [Scalar T] where
  value : T → EReal
  isNaN_zero : isNaN (0 : T) = false
  value_zero : value 0 = 0
  lt_iff {a b : T} (ha : isNaN a = false) (hb : isNaN b = false) : a < b ↔ value a < value b
  le_iff {a b : T} (ha : isNaN a = false) (hb : isNaN b = false) : a ≤ b ↔ value a ≤ value b
  isNaN_abs (a : T) : isNaN (Scalar.abs a) = isNaN a
  value_abs (a : T) : value (Scalar.abs a) = (value a).abs
  /-- Zeros have one absolute value, whatever their sign. -/
  abs_of_value_eq_zero {a : T} (ha : isNaN a = false) (h : value a = 0) : Scalar.abs a = 0

namespace Dense

open ExtendedReal

variable {T : Type} [Scalar T] [ExtendedReal T] {a b bound : T} {x : List T} {c : ℝ≥0∞}

/-- The largest absolute value in a list, or zero in an empty one. -/
structure IsLargest (x : List T) (a : T) : Prop where
  abs_le : ∀ b ∈ x, Scalar.abs b ≤ a
  attained : x = [] ∧ a = 0 ∨ ∃ b ∈ x, a = Scalar.abs b
  value_eq : value a = (⨆ b ∈ x, (value b).abs : ℝ≥0∞)

omit [ExtendedReal T] in
theorem larger_of_number (ha : isNaN a = false) (hb : isNaN b = false) :
    larger a b = if a < b then b else a := by
  rw [larger, if_neg (Bool.eq_false_iff.mp ha), if_neg (Bool.eq_false_iff.mp hb)]

omit [ExtendedReal T] in
theorem larger_eq_or_eq (ha : isNaN a = false) (hb : isNaN b = false) :
    larger a b = a ∨ larger a b = b := by
  rw [larger_of_number ha hb]
  split
  · exact .inr rfl
  · exact .inl rfl

omit [ExtendedReal T] in
theorem isNaN_larger (ha : isNaN a = false) (hb : isNaN b = false) :
    isNaN (larger a b) = false := by
  obtain h | h := larger_eq_or_eq ha hb
  · rw [h, ha]
  · rw [h, hb]

theorem value_larger (ha : isNaN a = false) (hb : isNaN b = false) :
    value (larger a b) = max (value a) (value b) := by
  rw [larger_of_number ha hb]
  split
  · next less => exact (max_eq_right ((lt_iff ha hb).mp less).le).symm
  · next least => exact (max_eq_left (not_lt.mp fun h => least ((lt_iff ha hb).mpr h))).symm

/-- The bound keeps apart from NaNs, so that the pass ends with one only where it meets one. -/
theorem isNaN_largest (hbound : isNaN bound = false) :
    isNaN (largest bound x) = true ↔ ∃ b ∈ x, isNaN b = true := by
  induction x generalizing bound with
  | nil => simp [largest, hbound]
  | cons b x ih =>
    rw [largest, List.exists_mem_cons_iff]
    cases hb : isNaN b with
    | true => simp [hb]
    | false =>
      rw [if_neg Bool.false_ne_true, ih (isNaN_larger hbound ((isNaN_abs b).trans hb))]
      simp

omit [ExtendedReal T] in
theorem largest_cons (hb : isNaN b = false) :
    largest bound (b :: x) = largest (larger bound (Scalar.abs b)) x :=
  if_neg (Bool.eq_false_iff.mp hb)

/-- The result is the bound or the absolute value of an entry, and nothing that is computed. -/
theorem largest_mem (hbound : isNaN bound = false) (numbers : ∀ b ∈ x, isNaN b = false) :
    largest bound x = bound ∨ ∃ b ∈ x, largest bound x = Scalar.abs b := by
  induction x generalizing bound with
  | nil => exact .inl rfl
  | cons b x ih =>
    obtain ⟨hb, hx⟩ := List.forall_mem_cons.mp numbers
    have habs := (isNaN_abs b).trans hb
    rw [largest_cons hb, List.exists_mem_cons_iff]
    obtain h | h := ih (isNaN_larger hbound habs) hx
    · rw [h]
      exact (larger_eq_or_eq hbound habs).imp_right .inl
    · exact .inr (.inr h)

theorem value_largest (hbound : isNaN bound = false) (numbers : ∀ b ∈ x, isNaN b = false)
    (hc : value bound = c) :
    value (largest bound x) = (c ⊔ ⨆ b ∈ x, (value b).abs : ℝ≥0∞) := by
  induction x generalizing bound c with
  | nil => simpa [largest] using hc
  | cons b x ih =>
    obtain ⟨hb, hx⟩ := List.forall_mem_cons.mp numbers
    have habs := (isNaN_abs b).trans hb
    have next : value (larger bound (Scalar.abs b)) = (c ⊔ (value b).abs : ℝ≥0∞) := by
      rw [value_larger hbound habs, hc, value_abs]
      exact (EReal.coe_ennreal_strictMono.monotone.map_max).symm
    rw [largest_cons hb, ih (isNaN_larger hbound habs) hx next]
    simp only [List.mem_cons, iSup_or, iSup_sup_eq, iSup_iSup_eq_left, sup_assoc]

section Zero

variable (numbers : ∀ b ∈ x, isNaN b = false)
include numbers

theorem value_largest_zero : value (largest 0 x) = (⨆ b ∈ x, (value b).abs : ℝ≥0∞) := by
  rw [value_largest isNaN_zero numbers (value_zero.trans EReal.coe_ennreal_zero.symm),
    max_eq_right zero_le]

theorem abs_value_le_largest (hb : b ∈ x) : ((value b).abs : EReal) ≤ value (largest 0 x) := by
  rw [value_largest_zero numbers, EReal.coe_ennreal_le_coe_ennreal_iff]
  exact le_iSup₂ (f := fun b (_ : b ∈ x) => (value b).abs) b hb

theorem isNaN_largest_eq_false : isNaN (largest 0 x) = false := by
  rw [Bool.eq_false_iff, Ne, isNaN_largest isNaN_zero]
  rintro ⟨b, hb, nan⟩
  rw [numbers b hb] at nan
  cases nan

theorem largest_zero_mem : x = [] ∧ largest 0 x = 0 ∨ ∃ b ∈ x, largest 0 x = Scalar.abs b := by
  obtain h | attained := largest_mem isNaN_zero numbers
  · cases x with
    | nil => exact .inl ⟨rfl, rfl⟩
    | cons b x =>
      have hb := List.mem_cons_self (a := b) (l := x)
      have least := abs_value_le_largest numbers hb
      rw [h, value_zero, ← EReal.coe_ennreal_zero, EReal.coe_ennreal_le_coe_ennreal_iff] at least
      have zero := EReal.abs_eq_zero_iff.mp (le_zero_iff.mp least)
      exact .inr ⟨b, hb, h.trans (abs_of_value_eq_zero (numbers b hb) zero).symm⟩
  · exact .inr attained

theorem isLargest_largest : IsLargest x (largest 0 x) where
  abs_le b hb := by
    rw [le_iff ((isNaN_abs b).trans (numbers b hb)) (isNaN_largest_eq_false numbers), value_abs]
    exact abs_value_le_largest numbers hb
  attained := largest_zero_mem numbers
  value_eq := value_largest_zero numbers

end Zero

end Dense

end TrustRegion
