import TrustRegion.Failure

/-!
Vector spaces as a solve sees them: a value that carries out the algebra, may fail at any call and
may change from call to call.
-/
namespace TrustRegion

/-- What a call leaves in the buffer that it writes to, and the failure if there was one. -/
structure Written (V : Type) where
  content : V
  failure? : Option Failure := none

inductive NormKind where
  | two
  | infinity
  deriving DecidableEq, Repr

namespace NormKind

def all : List NormKind := [two, infinity]

def code : NormKind → String
  | two => "Two"
  | infinity => "Infinity"

end NormKind

/-- A space `S` over numbers `T` with vectors `V`. Every fallible operation also returns the space
for the next call; `copy x y`, `axpy a x y`, `aypx a x y` and `axpby a x b y` write to `y`. -/
class VectorSpace (T V : outParam Type) (S : Type) where
  dimension : S → V → Nat
  zerosLike : S → V → V
  setZero : S → V → V
  copy : S → V → V → Written V × S
  dot : S → V → V → Except Failure T × S
  norm : S → V → NormKind → Except Failure T × S
  /-- The buffer becomes `y + a x`. -/
  axpy : S → T → V → V → Written V × S
  /-- The buffer becomes `x + a y`. -/
  aypx : S → T → V → V → Written V × S
  /-- The buffer becomes `a x + b y`. -/
  axpby : S → T → V → T → V → Written V × S

end TrustRegion
