/-!
Binary floating-point formats, read and written as bit patterns.

`Format.unpack` gives the exact value of a pattern and `Format.nearest?` the pattern nearest to a
positive fraction, a half going to the even neighbour. Both work in exact integers.
-/
namespace TrustRegion.Binary

/-- A format is fixed by the bits of its significand (the hidden one included) and of its
exponent field. -/
structure Format where
  precision : Nat
  exponentBits : Nat
  deriving DecidableEq, Repr

namespace Format

def binary64 : Format := ⟨53, 11⟩

def binary32 : Format := ⟨24, 8⟩

/-- The patterns of one binade: a step of the exponent field adds this much to the pattern. -/
def binade (f : Format) : Nat := Nat.pow 2 (f.precision - 1)

/-- The exponent field of infinities and NaNs. -/
def topField (f : Format) : Nat := Nat.pow 2 f.exponentBits - 1

/-- The pattern of positive infinity, which is also the number of finite non-negative patterns. -/
def infinity (f : Format) : Nat := f.topField * f.binade

def signBit (f : Format) : Nat := Nat.pow 2 f.exponentBits * f.binade

/-- The exponent of the last place of the subnormal numbers. -/
def leastExponent (f : Format) : Int :=
  3 - Nat.pow 2 (f.exponentBits - 1) - f.precision

end Format

/-- What a pattern stands for; a finite value is `± significand * 2 ^ exponent`. -/
inductive Unpacked where
  | nan
  | infinite (negative : Bool)
  | finite (negative : Bool) (significand : Nat) (exponent : Int)
  deriving DecidableEq, Repr

def Format.unpack (f : Format) (pattern : Nat) : Unpacked :=
  let negative := decide (f.signBit ≤ pattern)
  let magnitude := pattern % f.signBit
  let field := magnitude / f.binade
  let fraction := magnitude % f.binade
  if field = f.topField then
    if fraction = 0 then .infinite negative else .nan
  else if field = 0 then
    .finite negative fraction f.leastExponent
  else
    .finite negative (f.binade + fraction) (f.leastExponent + (field - 1 : Nat))

/-- `base ^ e` as a numerator and a denominator, one of which is 1. -/
def power (base : Nat) (e : Int) : Nat × Nat := (Nat.pow base e.toNat, Nat.pow base (-e).toNat)

/-- The integer nearest to `num / den`; a half goes to the even neighbour. -/
def roundHalfEven (num den : Nat) : Nat :=
  let q := num / den
  let r := num % den
  if 2 * r < den then q else if den < 2 * r then q + 1 else q + q % 2

/-- The exponent of the last place at which `num / den` has the full precision, or the least
exponent of the format. -/
def Format.lastPlace (f : Format) (num den : Nat) : Int :=
  let guess : Int := (num.log2 : Int) - den.log2 - f.precision
  let (up, down) := power 2 (guess + f.precision)
  max (if num * down < den * up then guess else guess + 1) f.leastExponent

/-- The finite pattern nearest to the positive fraction `num / den`, none if it overflows. A carry
out of the significand moves to the next binade by itself. -/
def Format.nearest? (f : Format) (num den : Nat) : Option Nat :=
  let place := f.lastPlace num den
  let (up, down) := power 2 place
  let significand := roundHalfEven (num * down) (den * up)
  let pattern := (place - f.leastExponent).toNat * f.binade + significand
  if pattern < f.infinity then some pattern else none

end TrustRegion.Binary
