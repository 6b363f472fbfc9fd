import TrustRegion.Decimal.Notation
import TrustRegion.Decimal.Literal
import TrustRegion.Scalar.Basic

/-!
Double and single precision as scalars, with the constants of each precision.
-/
namespace TrustRegion

/-- A floating-point format together with its scalar: the patterns of its numbers, the conversion
from a double, and the tolerances that suit it. -/
class Precision (T : Type) extends Scalar T where
  format : Binary.Format
  toPattern : T → Nat
  ofPattern : Nat → T
  ofFloat : Float → T
  /-- The gap between 1 and the next larger number. -/
  epsilon : T
  relativeTolerance : T
  absoluteTolerance : T
  divergenceTolerance : T

namespace Precision

variable {T : Type} [Precision T]

/-- The number nearest to a natural number, infinite beyond the finite range. -/
def ofNat (n : Nat) : T :=
  ofPattern (if n = 0 then 0 else ((format T).nearest? n 1).getD (format T).infinity)

def ofLiteral? (l : Decimal.Literal) : Option T := (l.pattern? (format T)).map ofPattern

end Precision

/-- Positional text of a double. -/
def Decimal.plain (x : Float) : String :=
  plainText .binary64 (Binary.Format.binary64.unpack x.toBits.toNat)

def Decimal.scientific (x : Float) : String :=
  scientificText .binary64 (Binary.Format.binary64.unpack x.toBits.toNat)

/-- Text of a double with an exponent and `places` digits after the point. -/
def Decimal.fixed (places : Nat) (x : Float) : String :=
  fixedText places (Binary.Format.binary64.unpack x.toBits.toNat)

instance : Scalar Float where
  zero := 0
  one := 1
  decideLT := inferInstance
  decideLE := inferInstance
  sqrt := Float.sqrt
  abs := Float.abs
  isNaN := Float.isNaN
  isFinite := Float.isFinite
  toFloat := id
  text := Decimal.plain

instance : Precision Float where
  format := .binary64
  toPattern x := x.toBits.toNat
  ofPattern n := Float.ofBits n.toUInt64
  ofFloat := id
  epsilon := Float.ofBits 0x3CB0000000000000
  relativeTolerance := 1e-5
  absoluteTolerance := 1e-50
  divergenceTolerance := 1e5

instance : Scalar Float32 where
  zero := 0
  one := 1
  decideLT := inferInstance
  decideLE := inferInstance
  sqrt := Float32.sqrt
  abs := Float32.abs
  isNaN := Float32.isNaN
  isFinite := Float32.isFinite
  toFloat := Float32.toFloat
  text x := Decimal.plainText .binary32 (Binary.Format.binary32.unpack x.toBits.toNat)

instance : Precision Float32 where
  format := .binary32
  toPattern x := x.toBits.toNat
  ofPattern n := Float32.ofBits n.toUInt32
  ofFloat := Float.toFloat32
  epsilon := Float32.ofBits 0x34000000
  relativeTolerance := 1e-5
  absoluteTolerance := 1e-30
  divergenceTolerance := 1e5

end TrustRegion
