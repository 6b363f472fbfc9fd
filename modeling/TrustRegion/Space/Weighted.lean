import TrustRegion.Space.Euclidean

/-!
Euclidean algebra under the inner product of a list of weights.
-/
namespace TrustRegion

/-- The inner product `sum (w x) y`, summed from left to right. -/
structure Weighted (T : Type) where
  weights : List T

namespace Weighted

variable {T : Type} [Scalar T]

def product (s : Weighted T) (x y : List T) : T :=
  (List.zipWith (· * ·) (List.zipWith (· * ·) s.weights x) y).foldl (· + ·) 0

def dot (s : Weighted T) (x y : List T) : Except Failure T :=
  if x.length = s.weights.length ∧ y.length = s.weights.length then .ok (s.product x y)
  else .error (.dimensionMismatch s!"{s.weights.length}" s!"{x.length}, {y.length}")

def norm (s : Weighted T) (x : List T) : NormKind → Except Failure T
  | .two => (s.dot x x).map Scalar.sqrt
  | .infinity => .ok (Dense.norm x .infinity)

instance : VectorSpace T (List T) (Weighted T) where
  dimension _ x := x.length
  zerosLike _ x := Dense.zeros x.length
  setZero _ x := Dense.zeros x.length
  copy s x y := (Euclidean.copy x y, s)
  dot s x y := (s.dot x y, s)
  norm s x kind := (s.norm x kind, s)
  axpy s a x y := (Euclidean.axpy a x y, s)
  aypx s a x y := (Euclidean.aypx a x y, s)
  axpby s a x b y := (Euclidean.axpby a x b y, s)

end Weighted

end TrustRegion
