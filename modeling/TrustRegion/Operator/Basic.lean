import TrustRegion.Space.Basic

/-!
What a solve needs of a Hessian or of a preconditioner: applying it to a vector.
-/
namespace TrustRegion

/-- Objects of type `A` that act on vectors. Applying one to `x` writes to the buffer `y`, which it
may also read, may fail, and returns the object for the next application. -/
class ActsOn (V : Type) (A : Type) where
  apply : A → V → V → Written V × A

end TrustRegion
