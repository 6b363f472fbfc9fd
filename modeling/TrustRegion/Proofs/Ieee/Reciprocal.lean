import TrustRegion.Proofs.Ieee.Unpacked

/-! The reciprocal of a floating-point number: it keeps the sign and does not vanish, and it
overflows exactly for the numbers up to a quarter of the least normal one. -/
namespace TrustRegion.Unpacked

open Float.Model (Format UnpackedFloat totalExponent)
open Float.Model.UnpackedFloat

variable {format : Format} {s : Sign} {m : ℕ} {e : ℤ} {x : UnpackedFloat}

section Formats

theorem two_pow_exponentBits (format : Format) :
    2 ^ format.exponentBits = 2 * format.exponentBias + 2 := by
  obtain ⟨k, hk⟩ : ∃ k, format.exponentBits = k + 1 :=
    ⟨format.exponentBits - 1, (Nat.sub_one_add_one (Nat.ne_of_gt format.he)).symm⟩
  have least : 1 ≤ 2 ^ k := Nat.one_le_two_pow
  rw [Format.exponentBias, hk, Nat.add_sub_cancel, pow_succ]
  omega

theorem two_pow_mantissaBits (format : Format) :
    2 ^ format.mantissaBits = 2 * 2 ^ format.mantissaBitsWithoutImplicit := by
  rw [Format.mantissaBits, pow_add, pow_one]

theorem minExponent_eq (format : Format) : format.minExponent =
    1 - (format.exponentBias : ℤ) - format.mantissaBitsWithoutImplicit := by
  have least : 1 ≤ 2 ^ (format.exponentBits - 1) := Nat.one_le_two_pow
  rw [Format.minExponent, Format.exponentBias, Format.mantissaBits, Nat.cast_sub least]
  push_cast
  ring

/-- The exponent of the largest finite numbers. -/
def maxExponent (format : Format) : ℤ :=
  format.exponentBias - format.mantissaBitsWithoutImplicit

/-- A significand and an exponent that a format has a finite number for. -/
structure Stands (format : Format) (m : ℕ) (e : ℤ) : Prop where
  pos : 0 < m
  lt : m < 2 ^ format.mantissaBits
  least : format.minExponent ≤ e
  normal : 2 ^ format.mantissaBitsWithoutImplicit ≤ m ∨ e = format.minExponent
  greatest : e ≤ maxExponent format

theorem stands_of_unpack {bits : BitVec format.numBits} {pos : 0 < m}
    (biased : 0 < format.exponentBias) (h : unpack format bits = .finite s m e pos) :
    Stands format m e := by
  have capacity := two_pow_exponentBits format
  have doubled := two_pow_mantissaBits format
  have least := minExponent_eq format
  have greatest : maxExponent format =
      (format.exponentBias : ℤ) - format.mantissaBitsWithoutImplicit := rfl
  have significand : (unpackMantissa bits).toNat < 2 ^ format.mantissaBitsWithoutImplicit :=
    (unpackMantissa bits).isLt
  have field : (unpackExponent bits).toNat < 2 ^ format.exponentBits := (unpackExponent bits).isLt
  unfold unpack at h
  dsimp only at h
  split at h
  · split at h <;> cases h
  · next special =>
    have bounded : (unpackExponent bits).toNat ≠ 2 ^ format.exponentBits - 1 := by
      intro largest
      apply special
      apply BitVec.eq_of_toNat_eq
      rw [largest, BitVec.neg_one_eq_allOnes, BitVec.toNat_allOnes]
    split at h
    · next zero =>
      have zero : (unpackExponent bits).toNat = 0 := congrArg BitVec.toNat zero
      split at h
      · cases h
      · cases h
        refine ⟨pos, ?_, ?_, .inr ?_, ?_⟩ <;> omega
    · next nonzero =>
      have nonzero : (unpackExponent bits).toNat ≠ 0 := fun zero =>
        nonzero (BitVec.eq_of_toNat_eq zero)
      have leading : (1#1 ++ unpackMantissa bits).toNat =
          2 ^ format.mantissaBitsWithoutImplicit + (unpackMantissa bits).toNat := by
        rw [BitVec.toNat_append, ← Nat.shiftLeft_add_eq_or_of_lt significand]
        simp [Nat.shiftLeft_eq]
      cases h
      refine ⟨pos, ?_, ?_, .inl ?_, ?_⟩ <;> omega

end Formats

section Rounding

variable {q : ℕ} {t : ℤ} {accuracy : Accuracy}

/-- A finite number with the given sign and exponent, of a significand that the format holds. -/
def RoundedAt (format : Format) (s : Sign) (e : ℤ) (x : UnpackedFloat) : Prop :=
  ∃ m pos, x = .finite s m e pos ∧ m < 2 ^ format.mantissaBits

theorem mantissa_le_rounded (em : ExtendedMantissa) : em.mantissa ≤ em.roundedMantissa := by
  obtain ⟨m, round, sticky⟩ := em
  cases round <;> cases sticky <;>
    simp [ExtendedMantissa.roundedMantissa, ExtendedMantissa.accuracy, Accuracy.roundToNearestEven]

theorem rounded_le_mantissa (em : ExtendedMantissa) : em.roundedMantissa ≤ em.mantissa + 1 := by
  obtain ⟨m, round, sticky⟩ := em
  cases round <;> cases sticky <;>
    simp [ExtendedMantissa.roundedMantissa, ExtendedMantissa.accuracy, Accuracy.roundToNearestEven]
  omega

theorem mantissa_ofMantissaAndAccuracy :
    (ExtendedMantissa.ofMantissaAndAccuracy q accuracy).mantissa = q := by
  cases accuracy with
  | exact => rfl
  | inexact order => cases order <;> rfl

theorem rounded_bounds (q : ℕ) (accuracy : Accuracy) :
    q ≤ (ExtendedMantissa.ofMantissaAndAccuracy q accuracy).roundedMantissa ∧
      (ExtendedMantissa.ofMantissaAndAccuracy q accuracy).roundedMantissa ≤ q + 1 := by
  have low := mantissa_le_rounded (.ofMantissaAndAccuracy q accuracy)
  have high := rounded_le_mantissa (.ofMantissaAndAccuracy q accuracy)
  rw [mantissa_ofMantissaAndAccuracy] at low high
  exact ⟨low, high⟩

theorem mantissa_shiftRightOne (format : Format) (accuracy : Accuracy) :
    (ExtendedMantissa.ofMantissaAndAccuracy (2 ^ format.mantissaBits)
      accuracy).shiftRightOne.mantissa = 2 ^ format.mantissaBitsWithoutImplicit := by
  have doubled := two_pow_mantissaBits format
  rw [ExtendedMantissa.shiftRightOne]
  dsimp only
  rw [mantissa_ofMantissaAndAccuracy]
  omega

theorem shiftToTargetExponent_of_lt (hq : q < 2 ^ format.mantissaBits)
    (ht : format.minExponent ≤ t) :
    shiftToTargetExponent format q t accuracy =
      (ExtendedMantissa.ofMantissaAndAccuracy q accuracy, t) := by
  have bits : q.log2 + 1 ≤ format.mantissaBits := by
    by_cases hzero : q = 0
    · rw [hzero, Nat.log2_zero, Format.mantissaBits]
      omega
    · exact (Nat.log2_lt hzero).mpr hq
  have amount : (format.targetExponent (totalExponent q t) - t).toNat = 0 := by
    rw [Format.targetExponent, totalExponent]
    omega
  rw [shiftToTargetExponent, shiftToExponent, amount, Nat.cast_zero, add_zero]
  rfl

theorem shiftToTargetExponent_two_pow (ht : format.minExponent ≤ t) :
    shiftToTargetExponent format (2 ^ format.mantissaBits) t accuracy =
      ((ExtendedMantissa.ofMantissaAndAccuracy (2 ^ format.mantissaBits) accuracy).shiftRightOne,
        t + 1) := by
  have amount : (format.targetExponent (totalExponent (2 ^ format.mantissaBits) t) - t).toNat =
      1 := by
    rw [Format.targetExponent, totalExponent, Nat.log2_two_pow]
    omega
  rw [shiftToTargetExponent, shiftToExponent, amount, Nat.cast_one]
  rfl

theorem roundedAt_of_shifts {em em' : ExtendedMantissa} {t' : ℤ}
    (first : shiftToTargetExponent format q t accuracy = (em, t'))
    (second : shiftToTargetExponent format em.roundedMantissa t' .exact = (em', e))
    (pos : 0 < em'.mantissa) (lt : em'.mantissa < 2 ^ format.mantissaBits) :
    RoundedAt format s e (roundWithAccuracy format s q t accuracy) := by
  unfold roundWithAccuracy
  rw [first]
  dsimp only
  rw [second]
  dsimp only
  rw [dif_neg (Nat.ne_of_gt pos)]
  exact ⟨_, pos, rfl, lt⟩

theorem roundedAt_of_lt (hq : 0 < q) (ht : format.minExponent ≤ t)
    (hr : (ExtendedMantissa.ofMantissaAndAccuracy q accuracy).roundedMantissa <
      2 ^ format.mantissaBits) :
    RoundedAt format s t (roundWithAccuracy format s q t accuracy) := by
  obtain ⟨low, -⟩ := rounded_bounds q accuracy
  apply roundedAt_of_shifts (shiftToTargetExponent_of_lt (by omega) ht)
    (shiftToTargetExponent_of_lt hr ht)
  · rw [mantissa_ofMantissaAndAccuracy]
    omega
  · rw [mantissa_ofMantissaAndAccuracy]
    exact hr

theorem roundedAt_of_carry (hq : q < 2 ^ format.mantissaBits) (ht : format.minExponent ≤ t)
    (hr : (ExtendedMantissa.ofMantissaAndAccuracy q accuracy).roundedMantissa =
      2 ^ format.mantissaBits) :
    RoundedAt format s (t + 1) (roundWithAccuracy format s q t accuracy) := by
  have half := mantissa_shiftRightOne format .exact
  have doubled := two_pow_mantissaBits format
  have least : 1 ≤ 2 ^ format.mantissaBitsWithoutImplicit := Nat.one_le_two_pow
  apply roundedAt_of_shifts (shiftToTargetExponent_of_lt hq ht)
    (by rw [hr]; exact shiftToTargetExponent_two_pow ht)
  · omega
  · omega

theorem roundedAt_two_pow (ht : format.minExponent ≤ t) :
    RoundedAt format s (t + 1)
      (roundWithAccuracy format s (2 ^ format.mantissaBits) t accuracy) := by
  have half := mantissa_shiftRightOne format accuracy
  have doubled := two_pow_mantissaBits format
  have least : 2 ≤ 2 ^ format.mantissaBitsWithoutImplicit :=
    Nat.le_self_pow (Nat.ne_of_gt format.hm) 2
  have low := mantissa_le_rounded
    (ExtendedMantissa.ofMantissaAndAccuracy (2 ^ format.mantissaBits) accuracy).shiftRightOne
  have high := rounded_le_mantissa
    (ExtendedMantissa.ofMantissaAndAccuracy (2 ^ format.mantissaBits) accuracy).shiftRightOne
  apply roundedAt_of_shifts (shiftToTargetExponent_two_pow ht)
    (shiftToTargetExponent_of_lt (by omega) (by omega))
  · rw [mantissa_ofMantissaAndAccuracy]
    omega
  · rw [mantissa_ofMantissaAndAccuracy]
    omega

theorem roundedAt_of_succ_lt (pos : 0 < q) (hq : q + 1 < 2 ^ format.mantissaBits)
    (ht : format.minExponent ≤ t) :
    RoundedAt format s t (roundWithAccuracy format s q t accuracy) := by
  obtain ⟨-, high⟩ := rounded_bounds q accuracy
  exact roundedAt_of_lt pos ht (by omega)

/-- Rounding raises the exponent by one at most. -/
theorem exists_roundedAt (accuracy : Accuracy) (pos : 0 < q) (hq : q ≤ 2 ^ format.mantissaBits)
    (ht : format.minExponent ≤ t) :
    ∃ e, t ≤ e ∧ e ≤ t + 1 ∧ RoundedAt format s e (roundWithAccuracy format s q t accuracy) := by
  obtain ⟨-, high⟩ := rounded_bounds q accuracy
  obtain hlt | rfl := Nat.lt_or_eq_of_le hq
  · by_cases hr : (ExtendedMantissa.ofMantissaAndAccuracy q accuracy).roundedMantissa <
        2 ^ format.mantissaBits
    · exact ⟨t, le_refl t, by omega, roundedAt_of_lt pos ht hr⟩
    · exact ⟨t + 1, by omega, le_refl _, roundedAt_of_carry hlt ht (by omega)⟩
  · exact ⟨t + 1, by omega, le_refl _, roundedAt_two_pow ht⟩

end Rounding

section Storing

theorem overflows_iff (he : format.minExponent ≤ e) :
    2 ^ format.exponentBits ≤
        (e + format.exponentBias + format.mantissaBitsWithoutImplicit).toNat + 1 ↔
      maxExponent format < e := by
  have capacity := two_pow_exponentBits format
  have least := minExponent_eq format
  unfold maxExponent
  omega

variable {exponent : BitVec format.exponentBits}
  {mantissa : BitVec format.mantissaBitsWithoutImplicit}

theorem isFinite_packComponents (special : exponent ≠ -1#_)
    (nonzero : exponent = 0#_ → mantissa ≠ 0#_) :
    (unpack format (packComponents format s exponent mantissa)).isFinite = true ∧
      (unpack format (packComponents format s exponent mantissa)).beq (.zero .positive) = false := by
  have finite (s : Sign) (m : ℕ) (e : ℤ) (pos : 0 < m) :
      (UnpackedFloat.finite s m e pos).beq (.zero .positive) = false := by
    cases s <;> rfl
  unfold unpack
  simp only [unpackMantissa_packComponents, unpackExponent_packComponents]
  rw [if_neg special]
  split
  · next subnormal =>
    rw [dif_neg (nonzero subnormal)]
    exact ⟨rfl, finite _ _ _ _⟩
  · exact ⟨rfl, finite _ _ _ _⟩

theorem ofNat_ne_zero {k n : ℕ} (pos : 0 < n) (lt : n < 2 ^ k) : BitVec.ofNat k n ≠ 0#_ := by
  intro zero
  have hn := congrArg BitVec.toNat zero
  rw [BitVec.toNat_ofNat, BitVec.toNat_zero, Nat.mod_eq_of_lt lt] at hn
  omega

/-- A rounded number does not vanish when it is packed, and is finite unless it overflows. -/
theorem RoundedAt.stored (h : RoundedAt format s e x) (he : format.minExponent ≤ e) :
    (stored format x).beq (.zero .positive) = false ∧
      ((stored format x).isFinite = true ↔ e ≤ maxExponent format) := by
  obtain ⟨m, pos, rfl, lt⟩ := h
  have overflow := overflows_iff he
  have least := minExponent_eq format
  unfold Unpacked.stored pack
  dsimp only
  split
  · next infinite =>
    have infinity : unpack format (packedInfinity format s) = .infinity s := stored_infinity
    rw [infinity]
    refine ⟨by cases s <;> rfl, fun h => ?_, fun h => ?_⟩
    · cases h
    · omega
  · next inRange =>
    have bounded : e ≤ maxExponent format := by omega
    split
    · have positive : BitVec.ofNat format.exponentBits
          (e + format.exponentBias + format.mantissaBitsWithoutImplicit).toNat ≠ 0#_ :=
        ofNat_ne_zero (by omega) (by omega)
      obtain ⟨finite, nonzero⟩ := isFinite_packComponents (s := s)
        (ofNat_ne_neg_one (Nat.lt_of_not_le inRange)) fun zero => absurd zero positive
      exact ⟨nonzero, iff_of_true finite bounded⟩
    · next subnormal =>
      have short : m < 2 ^ format.mantissaBitsWithoutImplicit := by
        have bits := (Nat.log2_lt (Nat.ne_of_gt pos)).mpr lt
        rw [Format.mantissaBits] at bits subnormal
        exact (Nat.log2_lt (Nat.ne_of_gt pos)).mp (by omega)
      obtain ⟨finite, nonzero⟩ := isFinite_packComponents (s := s) zero_ne_neg_one
        fun _ => ofNat_ne_zero pos short
      exact ⟨nonzero, iff_of_true finite bounded⟩

end Storing

section Dividing

def one (format : Format) : UnpackedFloat :=
  .finite .positive (2 ^ format.mantissaBitsWithoutImplicit) (-format.mantissaBitsWithoutImplicit)
    (Nat.two_pow_pos _)

def reciprocalExponent (format : Format) (m : ℕ) (e : ℤ) : ℤ :=
  max (-(m.log2 : ℤ) - e - format.mantissaBits) format.minExponent

/-- The power of two that is divided by `m` for the significand of the reciprocal. -/
def reciprocalShift (format : Format) (m : ℕ) (e : ℤ) : ℕ :=
  (-e - reciprocalExponent format m e).toNat

theorem log2_bounds (h : Stands format m e) :
    2 ^ m.log2 ≤ m ∧ m < 2 ^ (m.log2 + 1) ∧ m.log2 ≤ format.mantissaBitsWithoutImplicit := by
  have nonzero : m ≠ 0 := Nat.ne_of_gt h.pos
  have bits := (Nat.log2_lt nonzero).mpr h.lt
  rw [Format.mantissaBits] at bits
  exact ⟨Nat.log2_self_le nonzero, Nat.lt_log2_self, by omega⟩

theorem log2_eq_of_normal (h : Stands format m e) (normal : e ≠ format.minExponent) :
    m.log2 = format.mantissaBitsWithoutImplicit := by
  obtain ⟨-, hlt, hlog⟩ := log2_bounds h
  have implicit := h.normal.resolve_right normal
  have := (Nat.pow_lt_pow_iff_right one_lt_two).mp (implicit.trans_lt hlt)
  omega

theorem divCore_one (h : Stands format m e) :
    divCore format (2 ^ format.mantissaBitsWithoutImplicit) (-format.mantissaBitsWithoutImplicit)
        m e =
      (2 ^ reciprocalShift format m e / m, reciprocalExponent format m e,
        accuracyOfFraction (2 ^ reciprocalShift format m e % m) m) := by
  have hm := format.hm
  have bits : format.mantissaBits = 1 + format.mantissaBitsWithoutImplicit := rfl
  have least := minExponent_eq format
  have greatest := h.greatest
  unfold maxExponent at greatest
  have target : min (-(format.mantissaBitsWithoutImplicit : ℤ) - e) (format.targetExponent
      (totalExponent (2 ^ format.mantissaBitsWithoutImplicit)
        (-format.mantissaBitsWithoutImplicit) - totalExponent m e)) =
      reciprocalExponent format m e := by
    rw [Format.targetExponent, totalExponent, totalExponent, Nat.log2_two_pow, reciprocalExponent]
    omega
  have shifted : 2 ^ format.mantissaBitsWithoutImplicit <<<
      (-(format.mantissaBitsWithoutImplicit : ℤ) - e - reciprocalExponent format m e).toNat =
      2 ^ reciprocalShift format m e := by
    rw [Nat.shiftLeft_eq, ← pow_add, reciprocalShift, reciprocalExponent]
    congr 1
    omega
  unfold divCore
  dsimp only
  rw [target, shifted]

theorem div_one (h : Stands format m e) (pos : 0 < m) :
    div format (one format) (.finite s m e pos) =
      roundWithAccuracy format s (2 ^ reciprocalShift format m e / m)
        (reciprocalExponent format m e)
        (accuracyOfFraction (2 ^ reciprocalShift format m e % m) m) := by
  have sign : Sign.positive / s = s := by
    cases s <;> rfl
  rw [one, div, sign, divCore_one h]

theorem quotient_pos (wide : 2 ≤ format.mantissaBitsWithoutImplicit) (h : Stands format m e) :
    0 < 2 ^ reciprocalShift format m e / m := by
  obtain ⟨-, hlt, hlog⟩ := log2_bounds h
  have bits : format.mantissaBits = 1 + format.mantissaBitsWithoutImplicit := rfl
  have least := minExponent_eq format
  have greatest := h.greatest
  unfold maxExponent at greatest
  apply Nat.div_pos _ h.pos
  apply hlt.le.trans (Nat.pow_le_pow_right two_pos _)
  rw [reciprocalShift, reciprocalExponent]
  omega

theorem quotient_le (h : Stands format m e) :
    2 ^ reciprocalShift format m e / m ≤ 2 ^ format.mantissaBits := by
  obtain ⟨hle, -, -⟩ := log2_bounds h
  apply Nat.div_le_of_le_mul
  calc 2 ^ reciprocalShift format m e
      ≤ 2 ^ (m.log2 + format.mantissaBits) := by
        apply Nat.pow_le_pow_right two_pos
        rw [reciprocalShift, reciprocalExponent]
        omega
    _ = 2 ^ m.log2 * 2 ^ format.mantissaBits := pow_add _ _ _
    _ ≤ m * 2 ^ format.mantissaBits := Nat.mul_le_mul_right _ hle

/-- Only a power of two has a quotient that the format does not hold. -/
theorem quotient_succ_lt (h : Stands format m e) (above : 2 ^ m.log2 < m) :
    2 ^ (m.log2 + format.mantissaBits) / m + 1 < 2 ^ format.mantissaBits := by
  obtain ⟨-, -, hlog⟩ := log2_bounds h
  have doubled := two_pow_mantissaBits format
  have implicit : 2 ≤ 2 ^ format.mantissaBitsWithoutImplicit :=
    Nat.le_self_pow (Nat.ne_of_gt format.hm) 2
  have bounded : 2 ^ m.log2 ≤ 2 ^ format.mantissaBitsWithoutImplicit :=
    Nat.pow_le_pow_right two_pos hlog
  obtain ⟨w, hw⟩ : ∃ w, 2 ^ format.mantissaBits = w + 1 :=
    ⟨2 ^ format.mantissaBits - 1, (Nat.sub_one_add_one (by omega)).symm⟩
  have : 2 ^ (m.log2 + format.mantissaBits) / m < w := by
    apply Nat.div_lt_of_lt_mul
    calc 2 ^ (m.log2 + format.mantissaBits)
        = 2 ^ m.log2 * w + 2 ^ m.log2 := by rw [pow_add, hw, Nat.mul_add, Nat.mul_one]
      _ < 2 ^ m.log2 * w + w := by omega
      _ = (2 ^ m.log2 + 1) * w := by rw [Nat.add_mul, Nat.one_mul]
      _ ≤ m * w := Nat.mul_le_mul_right w above
  omega

end Dividing

section Range

/-- At the edge of the range a quotient has the largest exponent before it is rounded. -/
theorem reciprocalExponent_edge (biased : 0 < format.exponentBias)
    (edge : m.log2 + 2 = format.mantissaBitsWithoutImplicit) :
    reciprocalExponent format m format.minExponent = maxExponent format ∧
      reciprocalShift format m format.minExponent = m.log2 + format.mantissaBits := by
  have bits : format.mantissaBits = 1 + format.mantissaBitsWithoutImplicit := rfl
  have least := minExponent_eq format
  rw [reciprocalShift, reciprocalExponent, maxExponent]
  omega

/-- There the reciprocal is in range unless the rounding carries, as it does for a power of two. -/
theorem exists_div_one_edge (wide : 2 ≤ format.mantissaBitsWithoutImplicit)
    (biased : 0 < format.exponentBias) (h : Stands format m format.minExponent) (pos : 0 < m)
    (edge : m.log2 + 2 = format.mantissaBitsWithoutImplicit) :
    ∃ e', format.minExponent ≤ e' ∧
      RoundedAt format s e' (div format (one format) (.finite s m format.minExponent pos)) ∧
      (e' ≤ maxExponent format ↔ 2 ^ m.log2 < m) := by
  obtain ⟨hle, -, -⟩ := log2_bounds h
  obtain ⟨target, shift⟩ := reciprocalExponent_edge biased edge
  have positive := quotient_pos wide h
  have ht : format.minExponent ≤ maxExponent format := target ▸ le_max_right _ _
  rw [div_one h, target, shift]
  rw [shift] at positive
  obtain above | power := Nat.lt_or_eq_of_le hle
  · exact ⟨_, ht, roundedAt_of_succ_lt positive (quotient_succ_lt h above) ht,
      iff_of_true le_rfl above⟩
  · rw [pow_add, power, Nat.mul_div_cancel_left _ pos]
    exact ⟨_, by omega, roundedAt_two_pow ht, by omega⟩

theorem two_pow_lt_iff (wide : 2 ≤ format.mantissaBitsWithoutImplicit) (h : Stands format m e)
    (inner : m.log2 + 2 ≠ format.mantissaBitsWithoutImplicit) :
    2 ^ (format.mantissaBitsWithoutImplicit - 2) < m ↔
      format.mantissaBitsWithoutImplicit < m.log2 + 2 := by
  obtain ⟨hle, hlt, -⟩ := log2_bounds h
  constructor
  · intro above
    have := (Nat.pow_lt_pow_iff_right one_lt_two).mp (above.trans hlt)
    omega
  · intro above
    have : 2 ^ (format.mantissaBitsWithoutImplicit - 2) < 2 ^ m.log2 :=
      Nat.pow_lt_pow_right one_lt_two (by omega)
    omega

/-- A reciprocal is rounded to a number of the format, or to one that is too large for it. -/
theorem exists_div_one (wide : 2 ≤ format.mantissaBitsWithoutImplicit)
    (biased : 0 < format.exponentBias) (h : Stands format m e) (pos : 0 < m) :
    ∃ e', format.minExponent ≤ e' ∧
      RoundedAt format s e' (div format (one format) (.finite s m e pos)) ∧
      (e' ≤ maxExponent format ↔
        (e = format.minExponent → 2 ^ (format.mantissaBitsWithoutImplicit - 2) < m)) := by
  by_cases edge : e = format.minExponent ∧ m.log2 + 2 = format.mantissaBitsWithoutImplicit
  · obtain ⟨rfl, edge⟩ := edge
    obtain ⟨e', low, rounded, range⟩ := exists_div_one_edge (s := s) wide biased h pos edge
    have quarter : format.mantissaBitsWithoutImplicit - 2 = m.log2 := by omega
    refine ⟨e', low, rounded, ?_⟩
    rw [range, quarter]
    exact ⟨fun above _ => above, fun above => above rfl⟩
  · have bits : format.mantissaBits = 1 + format.mantissaBitsWithoutImplicit := rfl
    have least := minExponent_eq format
    have hlow := h.least
    have ht : format.minExponent ≤ reciprocalExponent format m e := le_max_right _ _
    obtain ⟨e', hge, hle, rounded⟩ := exists_roundedAt (s := s)
      (accuracyOfFraction (2 ^ reciprocalShift format m e % m) m) (quotient_pos wide h)
      (quotient_le h) ht
    rw [← div_one h pos] at rounded
    refine ⟨e', by omega, rounded, ?_⟩
    rw [reciprocalExponent] at hge hle
    unfold maxExponent
    by_cases subnormal : e = format.minExponent
    · have inner := fun hlog => edge ⟨subnormal, hlog⟩
      rw [two_pow_lt_iff wide h inner]
      omega
    · have hlog := log2_eq_of_normal h subnormal
      omega

end Range

section Reciprocals

def magnitude : UnpackedFloat → ℚ
  | .finite _ m e _ => m * 2 ^ e
  | _ => 0

/-- A quarter of the least normal number. -/
def faint (format : Format) : ℚ := 2 ^ (-(format.exponentBias : ℤ) - 1)

theorem faint_lt_magnitude_iff (wide : 2 ≤ format.mantissaBitsWithoutImplicit)
    (h : Stands format m e) (pos : 0 < m) :
    faint format < magnitude (.finite s m e pos) ↔
      (e = format.minExponent → 2 ^ (format.mantissaBitsWithoutImplicit - 2) < m) := by
  have scaled : faint format =
      ((2 ^ (format.mantissaBitsWithoutImplicit - 2) : ℕ) : ℚ) * 2 ^ format.minExponent := by
    have least := minExponent_eq format
    rw [faint, Nat.cast_pow, Nat.cast_two, ← zpow_natCast, ← zpow_add₀ two_ne_zero]
    congr 1
    omega
  rw [scaled, magnitude]
  by_cases subnormal : e = format.minExponent
  · rw [subnormal, mul_lt_mul_iff_left₀ (zpow_pos two_pos _), Nat.cast_lt]
    exact ⟨fun above _ => above, fun above => above rfl⟩
  · have above : 2 ^ (format.mantissaBitsWithoutImplicit - 2) < m :=
      (Nat.pow_lt_pow_right one_lt_two (by omega)).trans_le (h.normal.resolve_right subnormal)
    refine iff_of_true ?_ fun _ => above
    exact mul_lt_mul (Nat.cast_lt.mpr above) (zpow_le_zpow_right₀ one_le_two h.least)
      (zpow_pos two_pos _) (Nat.cast_nonneg m)

theorem isPos_iff_of_hasSign (h : HasSign s x) (nonzero : x.beq (.zero .positive) = false) :
    IsPos x ↔ s = .positive := by
  cases x with
  | notANumber => exact h.elim
  | zero => cases nonzero
  | infinity s' | finite s' =>
    obtain rfl : s' = s := h
    cases s' with
    | negative => exact iff_of_false Bool.false_ne_true nofun
    | positive => exact iff_of_true rfl rfl

theorem lt_zero_iff_of_hasSign (h : HasSign s x) (nonzero : x.beq (.zero .positive) = false) :
    x.lt (.zero .positive) = true ↔ s = .negative := by
  cases x with
  | notANumber => exact h.elim
  | zero => cases nonzero
  | infinity s' | finite s' =>
    obtain rfl : s' = s := h
    cases s' with
    | negative => exact iff_of_true rfl rfl
    | positive => exact iff_of_false Bool.false_ne_true nofun

/-- The reciprocal of a number of the format, other than zero. -/
structure IsReciprocal (format : Format) (x y : UnpackedFloat) : Prop where
  nonzero : y.beq (.zero .positive) = false
  pos_iff : IsPos y ↔ IsPos x
  neg_iff : y.lt (.zero .positive) = true ↔ x.lt (.zero .positive) = true
  finite_iff : y.isFinite = true ↔ faint format < magnitude x

theorem isReciprocal_one_div (wide : 2 ≤ format.mantissaBitsWithoutImplicit)
    (biased : 0 < format.exponentBias) {bits : BitVec format.numBits}
    (hx : unpack format bits = x) (finite : x.isFinite = true)
    (nonzero : x.beq (.zero .positive) = false) :
    IsReciprocal format x (stored format (div format (one format) x)) := by
  cases x with
  | notANumber | infinity => cases finite
  | zero => cases nonzero
  | finite s m e pos =>
    have stands := stands_of_unpack biased hx
    obtain ⟨e', least, rounded, range⟩ := exists_div_one (s := s) wide biased stands pos
    obtain ⟨nonzero', finite'⟩ := rounded.stored least
    have sign : HasSign s (stored format (div format (one format) (.finite s m e pos))) := by
      obtain ⟨_, _, quotient, -⟩ := rounded
      rw [quotient]
      exact hasSign_stored rfl
    have sign' : HasSign s (.finite s m e pos) := rfl
    constructor
    case nonzero => exact nonzero'
    case pos_iff =>
      rw [isPos_iff_of_hasSign sign nonzero', isPos_iff_of_hasSign sign' nonzero]
    case neg_iff =>
      rw [lt_zero_iff_of_hasSign sign nonzero', lt_zero_iff_of_hasSign sign' nonzero]
    case finite_iff => rw [finite', range, faint_lt_magnitude_iff wide stands pos]

end Reciprocals

end TrustRegion.Unpacked
