import TrustRegion.Operator.Matrix

/-!
Diagonal matrices, the identity, and the Jacobi preconditioner, which is the inverse of a diagonal.
-/
namespace TrustRegion

variable {T : Type} [Scalar T]

/-- The matrix with the given diagonal and zeros elsewhere. -/
structure Diagonal (T : Type) where
  entries : List T

/-- The inverse of a diagonal, stored entry by entry. -/
structure Jacobi (T : Type) where
  inverse : List T

/-- Entry by entry `d x`, written only if both vectors have as many entries as `d`; `source` and
`target` are their names in the message. -/
def scaleBy (source target : String) (d x y : List T) : Written (List T) :=
  if x.length = d.length ∧ y.length = d.length then
    { content := List.zipWith (· * ·) d x }
  else
    { content := y
      failure? := some (.dimensionMismatch s!"{d.length}"
        s!"{source}: {x.length}, {target}: {y.length}") }

def Diagonal.apply (D : Diagonal T) (x y : List T) : Written (List T) :=
  scaleBy "x" "y" D.entries x y

namespace Jacobi

/-- Entries that have no usable inverse. -/
def isSingular (d : T) : Bool := d == 0 || !Scalar.isFinite d

/-- Inverts the entries from position `i` on, up to the first that has no usable inverse. -/
def inverses (i : Nat) : List T → Except Failure (List T)
  | [] => .ok []
  | d :: ds =>
    if isSingular d then
      .error (.invalidArgument s!"diagonal[{i}]" (Scalar.text d)
        "Jacobi preconditioner requires finite nonzero diagonal entries")
    else (inverses (i + 1) ds).map (1 / d :: ·)

def ofDiagonal (d : List T) : Except Failure (Jacobi T) := (inverses 0 d).map Jacobi.mk

/-- From the diagonal of a matrix, which has to be square. -/
def ofMatrix (A : Matrix T) : Except Failure (Jacobi T) :=
  if A.rows.length = A.columns then ofDiagonal A.diagonal
  else .error (.dimensionMismatch "square matrix" A.shape)

def apply (J : Jacobi T) (r z : List T) : Written (List T) := scaleBy "r" "z" J.inverse r z

end Jacobi

def Identity.apply (x y : List T) : Written (List T) := Euclidean.copy x y

end TrustRegion
