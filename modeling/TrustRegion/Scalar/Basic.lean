/-!
The arithmetic that the recurrences run on.

`Scalar T` holds operations only and no laws, so that the same definitions run on floating-point
numbers and can be read over an exact field.
-/
namespace TrustRegion

/-- The numbers of a solve: arithmetic, comparisons that are false on incomparable values, and the
two forms in which a number is reported. -/
class Scalar (T : Type) extends
    Zero T, One T, Add T, Sub T, Mul T, Div T, Neg T, LT T, LE T, BEq T where
  decideLT : DecidableLT T
  decideLE : DecidableLE T
  sqrt : T → T
  abs : T → T
  isNaN : T → Bool
  isFinite : T → Bool
  /-- The double that stands for the number in a report. -/
  toFloat : T → Float
  text : T → String

namespace Scalar

variable {T : Type} [Scalar T]

instance : DecidableLT T := decideLT

instance : DecidableLE T := decideLE

def two : T := 1 + 1

def half : T := 1 / two

/-- The larger of two numbers; a NaN gives way to the other one. -/
def larger (a b : T) : T :=
  if isNaN a then b else if isNaN b then a else if a < b then b else a

end Scalar

end TrustRegion
