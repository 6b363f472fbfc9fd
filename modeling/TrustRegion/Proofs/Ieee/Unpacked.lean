import Mathlib
import TrustRegion.Scalar.Ieee

/-! Unpacked floating-point numbers: what packing keeps of them, and which operations lead from
numbers that are not finite to finite ones. -/
namespace TrustRegion.Unpacked

open Float.Model (Format UnpackedFloat)
open Float.Model.UnpackedFloat

variable {format : Format} {s : Sign} {x y : UnpackedFloat}

/-- What is left of a number that has been packed into a format. -/
def stored (format : Format) (x : UnpackedFloat) : UnpackedFloat := unpack format (pack format x)

/-- A number, infinite ones included, with its sign; a NaN has none. -/
def HasSign (s : Sign) : UnpackedFloat → Prop
  | .infinity s' | .zero s' | .finite s' _ _ _ => s' = s
  | .notANumber => False

section Packing

variable {exponent : BitVec format.exponentBits}
  {mantissa : BitVec format.mantissaBitsWithoutImplicit}

theorem sign_packComponents :
    Sign.ofBitVec (unpackSign (packComponents format s exponent mantissa)) = s := by
  rw [unpackSign_packComponents, Sign.ofBitVec_toBitVec]

theorem hasSign_packComponents (h : exponent = -1#_ → mantissa = 0#_) :
    HasSign s (unpack format (packComponents format s exponent mantissa)) := by
  unfold unpack
  simp only [unpackMantissa_packComponents, unpackExponent_packComponents]
  split
  · next special =>
    rw [if_pos (h special)]
    exact sign_packComponents
  · split
    · split
      · exact sign_packComponents
      · exact sign_packComponents
    · exact sign_packComponents

theorem ofNat_ne_neg_one {n : Nat} (h : n + 1 < 2 ^ format.exponentBits) :
    BitVec.ofNat format.exponentBits n ≠ -1#_ := by
  intro special
  have hn := congrArg BitVec.toNat special
  rw [BitVec.neg_one_eq_allOnes, BitVec.toNat_allOnes, BitVec.toNat_ofNat,
    Nat.mod_eq_of_lt (by omega)] at hn
  omega

theorem zero_ne_neg_one : (0#_ : BitVec format.exponentBits) ≠ -1#_ :=
  ofNat_ne_neg_one (Nat.one_lt_two_pow (Nat.ne_of_gt format.he))

@[simp] theorem stored_notANumber : stored format .notANumber = .notANumber := unpack_packedNaN

@[simp] theorem stored_infinity : stored format (.infinity s) = .infinity s := by
  unfold stored
  simp only [pack, packedInfinity, unpack, unpackMantissa_packComponents,
    unpackExponent_packComponents, sign_packComponents]
  rfl

@[simp] theorem stored_zero : stored format (.zero s) = .zero s := unpack_packedZero

/-- A number keeps its sign when it is packed, even if it overflows or vanishes. -/
theorem hasSign_stored (h : HasSign s x) : HasSign s (stored format x) := by
  cases x with
  | notANumber => exact h.elim
  | infinity s' => rw [stored_infinity]; exact h
  | zero s' => rw [stored_zero]; exact h
  | finite s' m e hm =>
    obtain rfl : s' = s := h
    unfold stored pack
    dsimp only
    split
    · exact hasSign_packComponents fun _ => rfl
    · next inRange =>
      split
      · exact hasSign_packComponents fun special =>
          absurd special (ofNat_ne_neg_one (Nat.lt_of_not_le inRange))
      · exact hasSign_packComponents fun special => absurd special zero_ne_neg_one

theorem isFinite_of_stored (h : (stored format x).isFinite = true) : x.isFinite = true := by
  cases x with
  | notANumber =>
    rw [stored_notANumber] at h
    cases h
  | infinity s =>
    rw [stored_infinity] at h
    cases h
  | zero => rfl
  | finite => rfl

end Packing

section Operations

theorem isFinite_add (h : (add format x y).isFinite = true) :
    x.isFinite = true ∧ y.isFinite = true := by
  have opposed (s s' : Sign) : (add format (.infinity s) (.infinity s')).isFinite = false := by
    unfold add
    dsimp only
    split <;> rfl
  cases x with
  | notANumber => cases h
  | infinity s =>
    cases y with
    | infinity s' =>
      rw [opposed] at h
      cases h
    | notANumber | zero | finite => cases h
  | zero | finite =>
    cases y with
    | notANumber | infinity => cases h
    | zero | finite => exact ⟨rfl, rfl⟩

theorem isFinite_mul (h : (mul format x y).isFinite = true) :
    x.isFinite = true ∧ y.isFinite = true := by
  cases x with
  | notANumber => cases h
  | infinity => cases y <;> cases h
  | zero | finite =>
    cases y with
    | notANumber | infinity => cases h
    | zero | finite => exact ⟨rfl, rfl⟩

theorem isFinite_div (h : (div format x y).isFinite = true) (hy : y.isFinite = true) :
    x.isFinite = true := by
  cases x with
  | notANumber => cases h
  | infinity =>
    cases y with
    | notANumber | infinity => cases hy
    | zero | finite => cases h
  | zero | finite => rfl

theorem isFinite_sub (h : (sub format x y).isFinite = true) :
    x.isFinite = true ∧ y.isFinite = true := by
  have opposed (s s' : Sign) : (sub format (.infinity s) (.infinity s')).isFinite = false := by
    unfold sub
    dsimp only
    split <;> rfl
  cases x with
  | notANumber => cases h
  | infinity s =>
    cases y with
    | infinity s' =>
      rw [opposed] at h
      cases h
    | notANumber | zero | finite => cases h
  | zero | finite =>
    cases y with
    | notANumber | infinity => cases h
    | zero | finite => exact ⟨rfl, rfl⟩

theorem isFinite_neg (h : x.neg.isFinite = true) : x.isFinite = true := by
  cases x with
  | notANumber | infinity => cases h
  | zero | finite => rfl

theorem isFinite_sqrt (h : (sqrt format x).isFinite = true) : x.isFinite = true := by
  cases x with
  | notANumber => cases h
  | infinity s => cases s <;> cases h
  | zero | finite => rfl

theorem hasSign_roundWithAccuracy (mantissa : Nat) (exponent : Int) (accuracy : Accuracy) :
    HasSign s (roundWithAccuracy format s mantissa exponent accuracy) := by
  unfold roundWithAccuracy
  dsimp only
  split <;> rfl

end Operations

section Order

/-- A number that is not negative, NaN excluded. -/
def IsNonneg (x : UnpackedFloat) : Prop := (UnpackedFloat.zero .positive).le x = true

def IsPos (x : UnpackedFloat) : Prop := (UnpackedFloat.zero .positive).lt x = true

theorem isNonneg_of_hasSign (h : HasSign .positive x) : IsNonneg x := by
  cases x with
  | notANumber => exact h.elim
  | _ =>
    obtain rfl := h
    rfl

theorem isPos_of_isFinite (h : x.isFinite = true) (hx : ¬ x.le (.zero .positive) = true) :
    IsPos x := by
  cases x with
  | notANumber | infinity => cases h
  | zero s => exact absurd rfl hx
  | finite s m e hm =>
    cases s with
    | negative => exact absurd rfl hx
    | positive => rfl

theorem isNonneg_of_isFinite (h : x.isFinite = true) (hx : ¬ x.lt (.zero .positive) = true) :
    IsNonneg x := by
  cases x with
  | notANumber | infinity => cases h
  | zero s => rfl
  | finite s m e hm =>
    cases s with
    | negative => exact absurd rfl hx
    | positive => rfl

theorem eq_zero_of_isFinite (h : x.isFinite = true) (hn : ¬ x.lt (.zero .positive) = true)
    (hp : ¬ IsPos x) : ∃ s, x = .zero s := by
  cases x with
  | notANumber | infinity => cases h
  | zero s => exact ⟨s, rfl⟩
  | finite s m e hm =>
    cases s with
    | negative => exact absurd rfl hn
    | positive => exact absurd rfl hp

theorem not_lt_of_isNonneg (h : IsNonneg x) : ¬ x.lt (.zero .positive) = true := by
  cases x with
  | notANumber => cases h
  | zero => exact Bool.false_ne_true
  | infinity s | finite s =>
    cases s with
    | negative => cases h
    | positive => exact Bool.false_ne_true

theorem beq_zero_of_isPos (h : IsPos x) : x.beq (.zero .positive) = false := by
  cases x with
  | notANumber | zero => cases h
  | infinity s | finite s =>
    cases s with
    | negative => cases h
    | positive => rfl

theorem isNaN_of_isNonneg (h : IsNonneg x) : x.isNaN = false := by
  cases x with
  | notANumber => cases h
  | infinity | zero | finite => rfl

theorem eq_infinity (number : x.isNaN = false)
    (nonneg : ¬ x.lt (.zero .positive) = true) (infinite : x.isFinite = false) :
    x = .infinity .positive := by
  cases x with
  | notANumber => cases number
  | zero | finite => cases infinite
  | infinity s =>
    cases s with
    | positive => rfl
    | negative => exact absurd rfl nonneg

theorem isNonneg_div (hx : x.isFinite = true) (nonneg : IsNonneg x) (hy : y.isFinite = true)
    (pos : IsPos y) : IsNonneg (stored format (div format x y)) := by
  cases y with
  | notANumber | infinity => cases hy
  | zero s => cases pos
  | finite s m e hm =>
    cases s with
    | negative => cases pos
    | positive =>
      cases x with
      | notANumber | infinity => cases hx
      | zero s =>
        rw [div, stored_zero]
        rfl
      | finite s m e hm =>
        cases s with
        | negative => cases nonneg
        | positive =>
          exact isNonneg_of_hasSign (hasSign_stored (hasSign_roundWithAccuracy _ _ _))

/-- A zero divided by anything is a zero, if it is finite at all. -/
theorem abs_zero_div_le (h : (stored format (div format (.zero s) y)).isFinite = true) :
    (stored format (stored format (div format (.zero s) y)).abs).le (.zero .positive) = true := by
  have zero (s : Sign) : (stored format (stored format (.zero s)).abs).le (.zero .positive) =
      true := by
    rw [stored_zero, UnpackedFloat.abs, stored_zero]
    rfl
  have h := isFinite_of_stored h
  cases y with
  | notANumber | zero => cases h
  | infinity => exact zero _
  | finite => exact zero _

end Order

end TrustRegion.Unpacked
