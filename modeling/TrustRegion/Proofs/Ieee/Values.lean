import TrustRegion.Proofs.Ieee.Inverses
import TrustRegion.Proofs.Largest

/-! Floating-point numbers as extended real numbers: they are compared as what they stand for, and
an absolute value is exact. -/
namespace TrustRegion

open Float.Model (Format UnpackedFloat)
open Float.Model.UnpackedFloat

namespace Unpacked

variable {format : Format} {s s' : Sign} {m m' : ℕ} {e e' : ℤ} {pos : 0 < m} {pos' : 0 < m'}
  {bits bits' : BitVec format.numBits} {x y : UnpackedFloat}

section Scaled

theorem scaled_lt_of_exponent_lt (h : Stands format m e) (h' : Stands format m' e')
    (less : e < e') : (m : ℚ) * 2 ^ e < m' * 2 ^ e' := by
  have implicit : 2 ^ format.mantissaBitsWithoutImplicit ≤ m' :=
    h'.normal.resolve_right fun subnormal => by
      have := h.least
      omega
  have significand : m < 2 * m' := by
    have := h.lt
    have := two_pow_mantissaBits format
    omega
  calc (m : ℚ) * 2 ^ e
      < (2 * m' : ℕ) * 2 ^ e := by
        gcongr
    _ = m' * 2 ^ (e + 1) := by
        rw [zpow_add_one₀ two_ne_zero]
        push_cast
        ring
    _ ≤ m' * 2 ^ e' := by
        gcongr
        · exact one_le_two
        · omega

/-- Exponents decide before significands do. -/
theorem cmp_scaled (h : Stands format m e) (h' : Stands format m' e') :
    cmp ((m : ℚ) * 2 ^ e) (m' * 2 ^ e') = (compare e e').then (compare m m') := by
  obtain less | rfl | more := lt_trichotomy e e'
  · rw [compare_lt_iff_lt.mpr less]
    exact (scaled_lt_of_exponent_lt h h' less).cmp_eq_lt
  · rw [compare_eq_iff_eq.mpr rfl, ← cmp_eq_compare m m', cmp_mul_pos_right (zpow_pos two_pos e),
      Nat.strictMono_cast.cmp_map_eq]
    rfl
  · rw [compare_gt_iff_gt.mpr more]
    exact (scaled_lt_of_exponent_lt h' h more).cmp_eq_gt

end Scaled

section Order

/-- The number that is stood for, infinite ones included; a NaN stands for none. -/
noncomputable def value : UnpackedFloat → EReal
  | .notANumber | .zero _ => 0
  | .infinity .positive => ⊤
  | .infinity .negative => ⊥
  | .finite .positive m e pos => ((magnitude (.finite .positive m e pos) : ℝ) : EReal)
  | .finite .negative m e pos => ((-magnitude (.finite .negative m e pos) : ℝ) : EReal)

theorem magnitude_pos : 0 < magnitude (.finite s m e pos) :=
  mul_pos (Nat.cast_pos.mpr pos) (zpow_pos two_pos e)

theorem value_positive : 0 < value (.finite .positive m e pos) :=
  EReal.coe_pos.mpr (Rat.cast_pos.mpr magnitude_pos)

theorem value_negative : value (.finite .negative m e pos) < 0 :=
  EReal.coe_neg'.mpr (neg_neg_of_pos (Rat.cast_pos.mpr magnitude_pos))

theorem value_finite_lt_top : value (.finite s m e pos) < ⊤ := by
  cases s <;> exact EReal.coe_lt_top _

theorem bot_lt_value_finite : ⊥ < value (.finite s m e pos) := by
  cases s <;> exact EReal.bot_lt_coe _

theorem strictMono_real : StrictMono fun q : ℚ => ((q : ℝ) : EReal) :=
  EReal.coe_strictMono.comp Rat.cast_strictMono

theorem strictAnti_real_neg : StrictAnti fun q : ℚ => ((-q : ℝ) : EReal) := fun _ _ less =>
  EReal.coe_strictMono (neg_lt_neg (Rat.cast_strictMono less))

/-- Two numbers are compared as what they stand for. -/
def Compared (x y : UnpackedFloat) : Prop :=
  ∃ o, x.compare y = some o ∧ o.Compares (value x) (value y)

theorem compared_infinity (s : Sign) (number : y.isNaN = false) : Compared (.infinity s) y := by
  cases y with
  | notANumber => cases number
  | infinity s' =>
    match s, s' with
    | .negative, .negative | .positive, .positive => exact ⟨.eq, rfl, rfl⟩
    | .negative, .positive => exact ⟨.lt, rfl, bot_lt_top⟩
    | .positive, .negative => exact ⟨.gt, rfl, bot_lt_top⟩
  | zero s' =>
    cases s with
    | negative => exact ⟨.lt, rfl, EReal.bot_lt_zero⟩
    | positive => exact ⟨.gt, rfl, EReal.zero_lt_top⟩
  | finite s' m e pos =>
    cases s with
    | negative => exact ⟨.lt, rfl, bot_lt_value_finite⟩
    | positive => exact ⟨.gt, rfl, value_finite_lt_top⟩

theorem compared_zero (s : Sign) (number : y.isNaN = false) : Compared (.zero s) y := by
  cases y with
  | notANumber => cases number
  | infinity s' =>
    cases s' with
    | negative => exact ⟨.gt, rfl, EReal.bot_lt_zero⟩
    | positive => exact ⟨.lt, rfl, EReal.zero_lt_top⟩
  | zero s' => exact ⟨.eq, rfl, rfl⟩
  | finite s' m e pos =>
    cases s' with
    | negative => exact ⟨.gt, rfl, value_negative⟩
    | positive => exact ⟨.lt, rfl, value_positive⟩

theorem compared_finite (h : Stands format m e) (h' : Stands format m' e') :
    Compared (.finite s m e pos) (.finite s' m' e' pos') := by
  match s, s' with
  | .negative, .negative =>
    refine ⟨_, rfl, ?_⟩
    rw [← cmp_scaled h h', cmp_swap, ← strictAnti_real_neg.cmp_map_eq]
    exact cmp_compares _ _
  | .negative, .positive => exact ⟨.lt, rfl, value_negative.trans value_positive⟩
  | .positive, .negative => exact ⟨.gt, rfl, value_negative.trans value_positive⟩
  | .positive, .positive =>
    refine ⟨_, rfl, ?_⟩
    rw [← cmp_scaled h h', ← strictMono_real.cmp_map_eq]
    exact cmp_compares _ _

theorem compared (biased : 0 < format.exponentBias) (hx : unpack format bits = x)
    (hy : unpack format bits' = y) (number : x.isNaN = false) (number' : y.isNaN = false) :
    Compared x y := by
  cases x with
  | notANumber => cases number
  | infinity s => exact compared_infinity s number'
  | zero s => exact compared_zero s number'
  | finite s m e pos =>
    cases y with
    | notANumber => cases number'
    | infinity s' =>
      cases s' with
      | negative => exact ⟨.gt, by cases s <;> rfl, bot_lt_value_finite⟩
      | positive => exact ⟨.lt, by cases s <;> rfl, value_finite_lt_top⟩
    | zero s' =>
      cases s with
      | negative => exact ⟨.lt, rfl, value_negative⟩
      | positive => exact ⟨.gt, rfl, value_positive⟩
    | finite s' m' e' pos' =>
      exact compared_finite (stands_of_unpack biased hx) (stands_of_unpack biased hy)

theorem Compared.lt_iff (h : Compared x y) : x.lt y = true ↔ value x < value y := by
  obtain ⟨o, compare, ordered⟩ := h
  rw [UnpackedFloat.lt, compare, ← ordered.eq_lt]
  cases o <;> decide

theorem Compared.le_iff (h : Compared x y) : x.le y = true ↔ value x ≤ value y := by
  obtain ⟨o, compare, ordered⟩ := h
  rw [UnpackedFloat.le, compare, ← ordered.ne_gt]
  cases o <;> decide

end Order

section Absolute

theorem two_le_exponentBits (biased : 0 < format.exponentBias) : 2 ≤ format.exponentBits := by
  have capacity := two_pow_exponentBits format
  have : 2 ^ 1 < 2 ^ format.exponentBits := by omega
  exact (Nat.pow_lt_pow_iff_right one_lt_two).mp this

/-- What has been unpacked is not changed by packing it again. -/
theorem stored_unpack (biased : 0 < format.exponentBias) (bits : BitVec format.numBits) :
    stored format (unpack format bits) = unpack format bits := by
  rw [stored, pack_unpack bits (two_le_exponentBits biased)]
  split
  · next nan =>
    obtain ⟨exponent, mantissa⟩ := of_decide_eq_true nan
    rw [unpack_packedNaN, unpack, if_pos exponent, if_neg mantissa]
  · rfl

theorem unpack_positive (bits : BitVec format.numBits) :
    unpack format (packComponents format .positive (unpackExponent bits) (unpackMantissa bits)) =
      (unpack format bits).abs := by
  unfold unpack
  simp only [unpackMantissa_packComponents, unpackExponent_packComponents, sign_packComponents]
  split
  · split <;> rfl
  · split
    · split <;> rfl
    · rfl

theorem stored_abs (biased : 0 < format.exponentBias) (bits : BitVec format.numBits) :
    stored format (unpack format bits).abs = (unpack format bits).abs := by
  rw [← unpack_positive, stored_unpack biased]

theorem isNaN_abs (x : UnpackedFloat) : x.abs.isNaN = x.isNaN := by
  cases x <;> rfl

theorem value_abs (x : UnpackedFloat) : value x.abs = (value x).abs := by
  cases x with
  | notANumber | zero =>
    show (0 : EReal) = (0 : EReal).abs
    rw [EReal.abs_zero, EReal.coe_ennreal_zero]
  | infinity s => cases s <;> rfl
  | finite s m e pos =>
    have nonneg : (0 : ℝ) ≤ magnitude (.finite s m e pos) := Rat.cast_nonneg.mpr magnitude_pos.le
    cases s with
    | negative => exact ((EReal.coe_abs _).trans (by rw [abs_neg, abs_of_nonneg nonneg]; rfl)).symm
    | positive => exact ((EReal.coe_abs _).trans (by rw [abs_of_nonneg nonneg]; rfl)).symm

theorem abs_of_value_eq_zero (number : x.isNaN = false) (h : value x = 0) :
    x.abs = .zero .positive := by
  cases x with
  | notANumber => cases number
  | zero => rfl
  | infinity s => cases s <;> cases h
  | finite s m e pos =>
    cases s with
    | negative => exact absurd h value_negative.ne
    | positive => exact absurd h value_positive.ne'

end Absolute

end Unpacked

/-- Floating-point numbers that differ only if they are unpacked differently. -/
class CanonicalIeee (T : Type) [Scalar T] extends PackedIeee T where
  unpacked_injective : Function.Injective unpacked

instance : CanonicalIeee Float where
  unpacked_injective a b same := by
    have bits := (unpack_inj_of_valid a.toModel.valid b.toModel.valid).mp same
    exact Float.toBits_inj.mp (UInt64.toBitVec_inj.mp bits)

instance : CanonicalIeee Float32 where
  unpacked_injective a b same := by
    have bits := (unpack_inj_of_valid a.toModel.valid b.toModel.valid).mp same
    exact Float32.toBits_inj.mp (UInt32.toBitVec_inj.mp bits)

namespace Ieee

open Scalar (isNaN)

variable {T : Type} [Scalar T]

section Packed

variable [PackedIeee T] {a b : T}

theorem unpacked_abs_eq (a : T) : unpacked (Scalar.abs a) = (unpacked a).abs := by
  obtain ⟨bits, hbits⟩ := PackedIeee.exists_bits a
  rw [unpacked_abs, ← hbits, Unpacked.stored_abs PackedIeee.biased]

theorem compared (ha : isNaN a = false) (hb : isNaN b = false) :
    Unpacked.Compared (unpacked a) (unpacked b) := by
  rw [isNaN_eq] at ha hb
  obtain ⟨bits, hbits⟩ := PackedIeee.exists_bits a
  obtain ⟨bits', hbits'⟩ := PackedIeee.exists_bits b
  exact Unpacked.compared PackedIeee.biased hbits hbits' ha hb

end Packed

noncomputable instance [CanonicalIeee T] : ExtendedReal T where
  value a := Unpacked.value (unpacked a)
  isNaN_zero := by rw [isNaN_eq, unpacked_zero]; rfl
  value_zero := by rw [unpacked_zero]; rfl
  lt_iff ha hb := (lt_iff _ _).trans (compared ha hb).lt_iff
  le_iff ha hb := (le_iff _ _).trans (compared ha hb).le_iff
  isNaN_abs a := by rw [isNaN_eq, isNaN_eq, unpacked_abs_eq, Unpacked.isNaN_abs]
  value_abs a := by rw [unpacked_abs_eq, Unpacked.value_abs]
  abs_of_value_eq_zero {a} ha h := by
    rw [isNaN_eq] at ha
    apply CanonicalIeee.unpacked_injective
    rw [unpacked_abs_eq, unpacked_zero, Unpacked.abs_of_value_eq_zero ha h]

end Ieee

end TrustRegion
