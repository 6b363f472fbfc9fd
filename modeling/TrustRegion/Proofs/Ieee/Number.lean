import TrustRegion.Proofs.Finite
import TrustRegion.Proofs.Ieee.Unpacked

/-! Scalars that are floating-point numbers of a format. -/
namespace TrustRegion

open Float.Model (Format UnpackedFloat)
open Unpacked (stored)

/-- Floating-point numbers: each stands for an unpacked one, on which the operations are carried
out before the result is packed into the format again. -/
class Ieee (T : Type) [Scalar T] where
  format : Format
  unpacked : T → UnpackedFloat
  unpacked_zero : unpacked 0 = .zero .positive
  unpacked_add (a b : T) :
    unpacked (a + b) = stored format (UnpackedFloat.add format (unpacked a) (unpacked b))
  unpacked_mul (a b : T) :
    unpacked (a * b) = stored format (UnpackedFloat.mul format (unpacked a) (unpacked b))
  unpacked_div (a b : T) :
    unpacked (a / b) = stored format (UnpackedFloat.div format (unpacked a) (unpacked b))
  unpacked_abs (a : T) : unpacked (Scalar.abs a) = stored format (unpacked a).abs
  lt_iff (a b : T) : a < b ↔ (unpacked a).lt (unpacked b) = true
  le_iff (a b : T) : a ≤ b ↔ (unpacked a).le (unpacked b) = true
  beq_eq (a b : T) : (a == b) = (unpacked a).beq (unpacked b)
  isFinite_eq (a : T) : Scalar.isFinite a = (unpacked a).isFinite
  isNaN_eq (a : T) : Scalar.isNaN a = (unpacked a).isNaN

instance : Ieee Float where
  format := .binary64
  unpacked a := a.toModel.unpack
  unpacked_zero := rfl
  unpacked_add _ _ := rfl
  unpacked_mul _ _ := rfl
  unpacked_div _ _ := rfl
  unpacked_abs _ := rfl
  lt_iff _ _ := decide_eq_true_iff
  le_iff _ _ := decide_eq_true_iff
  beq_eq _ _ := rfl
  isFinite_eq _ := rfl
  isNaN_eq _ := rfl

instance : Ieee Float32 where
  format := .binary32
  unpacked a := a.toModel.unpack
  unpacked_zero := rfl
  unpacked_add _ _ := rfl
  unpacked_mul _ _ := rfl
  unpacked_div _ _ := rfl
  unpacked_abs _ := rfl
  lt_iff _ _ := decide_eq_true_iff
  le_iff _ _ := decide_eq_true_iff
  beq_eq _ _ := rfl
  isFinite_eq _ := rfl
  isNaN_eq _ := rfl

namespace Ieee

open Scalar (isFinite isNaN)

variable {T : Type} [Scalar T] [Ieee T] {a b : T}

theorem isFinite_add (h : isFinite (a + b) = true) : isFinite a = true ∧ isFinite b = true := by
  rw [isFinite_eq, unpacked_add] at h
  rw [isFinite_eq, isFinite_eq]
  exact Unpacked.isFinite_add (Unpacked.isFinite_of_stored h)

theorem isFinite_mul (h : isFinite (a * b) = true) : isFinite a = true ∧ isFinite b = true := by
  rw [isFinite_eq, unpacked_mul] at h
  rw [isFinite_eq, isFinite_eq]
  exact Unpacked.isFinite_mul (Unpacked.isFinite_of_stored h)

instance : ReflectsFinite T where
  isFinite_add _ _ := isFinite_add
  isFinite_mul _ _ := isFinite_mul

theorem isFinite_div (h : isFinite (a / b) = true) (hb : isFinite b = true) :
    isFinite a = true := by
  rw [isFinite_eq, unpacked_div] at h
  rw [isFinite_eq] at hb ⊢
  exact Unpacked.isFinite_div (Unpacked.isFinite_of_stored h) hb

theorem nonneg_iff : 0 ≤ a ↔ Unpacked.IsNonneg (unpacked a) := by
  rw [le_iff, unpacked_zero]
  rfl

theorem pos_iff : 0 < a ↔ Unpacked.IsPos (unpacked a) := by
  rw [lt_iff, unpacked_zero]
  rfl

theorem pos_of_not_le (h : isFinite a = true) (ha : ¬ a ≤ 0) : 0 < a := by
  rw [isFinite_eq] at h
  rw [le_iff, unpacked_zero] at ha
  exact pos_iff.mpr (Unpacked.isPos_of_isFinite h ha)

theorem nonneg_of_not_lt (h : isFinite a = true) (ha : ¬ a < 0) : 0 ≤ a := by
  rw [isFinite_eq] at h
  rw [lt_iff, unpacked_zero] at ha
  exact nonneg_iff.mpr (Unpacked.isNonneg_of_isFinite h ha)

theorem nonneg_div (ha : isFinite a = true) (nonneg : 0 ≤ a) (hb : isFinite b = true)
    (pos : 0 < b) : 0 ≤ a / b := by
  rw [isFinite_eq] at ha hb
  rw [nonneg_iff, unpacked_div]
  exact Unpacked.isNonneg_div ha (nonneg_iff.mp nonneg) hb (pos_iff.mp pos)

/-- A finite number that is not negative is positive if a quotient of it is finite and does not
vanish. -/
theorem pos_of_div (ha : isFinite a = true) (nonneg : ¬ a < 0) (h : isFinite (a / b) = true)
    (nonzero : ¬ Scalar.abs (a / b) ≤ 0) : 0 < a := by
  rw [isFinite_eq] at ha
  rw [lt_iff, unpacked_zero] at nonneg
  rw [isFinite_eq, unpacked_div] at h
  rw [le_iff, unpacked_abs, unpacked_div, unpacked_zero] at nonzero
  by_cases pos : Unpacked.IsPos (unpacked a)
  · exact pos_iff.mpr pos
  · obtain ⟨s, hzero⟩ := Unpacked.eq_zero_of_isFinite ha nonneg pos
    rw [hzero] at h nonzero
    exact absurd (Unpacked.abs_zero_div_le h) nonzero

theorem isNaN_of_nonneg (h : 0 ≤ a) : isNaN a = false := by
  rw [isNaN_eq]
  exact Unpacked.isNaN_of_isNonneg (nonneg_iff.mp h)

theorem not_lt_of_nonneg (h : 0 ≤ a) : ¬ a < 0 := by
  rw [lt_iff, unpacked_zero]
  exact Unpacked.not_lt_of_isNonneg (nonneg_iff.mp h)

theorem unpacked_ne_infinity {s : UnpackedFloat.Sign} (h : isFinite a = true) :
    unpacked a ≠ .infinity s := by
  intro infinite
  rw [isFinite_eq, infinite] at h
  cases h

theorem beq_zero_of_pos (h : 0 < a) : (a == 0) = false := by
  rw [beq_eq, unpacked_zero]
  exact Unpacked.beq_zero_of_isPos (pos_iff.mp h)

end Ieee

/-- Floating-point numbers whose differences, opposites and roots are rounded like their sums. -/
class RoundedIeee (T : Type) [Scalar T] extends Ieee T where
  unpacked_sub (a b : T) :
    unpacked (a - b) = stored format (UnpackedFloat.sub format (unpacked a) (unpacked b))
  unpacked_neg (a : T) : unpacked (-a) = stored format (unpacked a).neg
  unpacked_sqrt (a : T) :
    unpacked (Scalar.sqrt a) = stored format (UnpackedFloat.sqrt format (unpacked a))

instance : RoundedIeee Float where
  unpacked_sub _ _ := rfl
  unpacked_neg _ := rfl
  unpacked_sqrt _ := rfl

instance : RoundedIeee Float32 where
  unpacked_sub _ _ := rfl
  unpacked_neg _ := rfl
  unpacked_sqrt _ := rfl

namespace Ieee

open Scalar (isFinite)

variable {T : Type} [Scalar T] [RoundedIeee T] {a b : T}

theorem isFinite_sub (h : isFinite (a - b) = true) : isFinite a = true ∧ isFinite b = true := by
  rw [isFinite_eq, RoundedIeee.unpacked_sub] at h
  rw [isFinite_eq, isFinite_eq]
  exact Unpacked.isFinite_sub (Unpacked.isFinite_of_stored h)

theorem isFinite_neg (h : isFinite (-a) = true) : isFinite a = true := by
  rw [isFinite_eq, RoundedIeee.unpacked_neg] at h
  rw [isFinite_eq]
  exact Unpacked.isFinite_neg (Unpacked.isFinite_of_stored h)

theorem isFinite_sqrt (h : isFinite (Scalar.sqrt a) = true) : isFinite a = true := by
  rw [isFinite_eq, RoundedIeee.unpacked_sqrt] at h
  rw [isFinite_eq]
  exact Unpacked.isFinite_sqrt (Unpacked.isFinite_of_stored h)

end Ieee

end TrustRegion
