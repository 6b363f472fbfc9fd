import TrustRegion.Operator.Diagonal

/-!
Rules for acting on lists of numbers: the shipped maps, and matrix-free ones that write their
output entry by entry without any check of lengths.
-/
namespace TrustRegion

/-- A way to act on lists of numbers, as a Hessian or as a preconditioner. -/
inductive Rule (T : Type) where
  | dense (A : Matrix T)
  | diagonal (D : Diagonal T)
  | identity
  | jacobi (J : Jacobi T)
  | scale (c : T)
  | scales (d : List T)
  | fill (c : T)
  /-- The buffer becomes one vector, of whatever length. -/
  | set (d : List T)
  | keep
  /-- The second difference with zero boundary values. -/
  | laplacian
  | fail (failure : Failure)
  /-- One application by the first rule and all later ones by the second. -/
  | andThen (first later : Rule T)
  | closure (rule : Rule T)
  | unnamed (rule : Rule T)

/-- Writes `values` over the first entries of a buffer and keeps its length. -/
def overwrite {T : Type} (values y : List T) : List T :=
  values.take y.length ++ y.drop values.length

namespace Rule

variable {T : Type} [Scalar T]

/-- The second differences of `x`, given the neighbour to the left of its first entry. -/
def secondDifferences (left : T) : List T → List T
  | [] => []
  | [x] => [(Scalar.two * x - left) - 0]
  | x :: right :: rest =>
    ((Scalar.two * x - left) - right) :: secondDifferences x (right :: rest)

def apply : Rule T → List T → List T → Written (List T) × Rule T
  | dense A, x, y => (A.apply x y, dense A)
  | diagonal D, x, y => (D.apply x y, diagonal D)
  | identity, x, y => (Identity.apply x y, identity)
  | jacobi J, x, y => (J.apply x y, jacobi J)
  | scale c, x, y => ({ content := overwrite (x.map (c * ·)) y }, scale c)
  | scales d, x, y => ({ content := overwrite (List.zipWith (· * ·) d x) y }, scales d)
  | fill c, _, y => ({ content := y.map fun _ => c }, fill c)
  | set d, _, _ => ({ content := d }, set d)
  | keep, _, y => ({ content := y }, keep)
  | laplacian, x, y => ({ content := overwrite (secondDifferences 0 x) y }, laplacian)
  | fail failure, _, y => ({ content := y, failure? := some failure }, fail failure)
  | andThen first later, x, y => ((first.apply x y).1, later)
  | closure rule, x, y =>
    let (written, next) := rule.apply x y
    (written, closure next)
  | unnamed rule, x, y =>
    let (written, next) := rule.apply x y
    (written, unnamed next)

instance : ActsOn (List T) (Rule T) where
  apply := Rule.apply

def operatorName : Rule T → String
  | dense _ => "Dense Matrix"
  | diagonal _ => "Diagonal"
  | unnamed _ => "Generic Operator"
  | _ => "Matrix-free"

def preconditionerName : Rule T → String
  | identity => "Identity"
  | jacobi _ => "Jacobi"
  | unnamed _ => "Generic Preconditioner"
  | _ => "User-defined"

/-- One rule after the other, the last of which repeats. -/
def chain (first : Rule T) : List (Rule T) → Rule T
  | [] => first
  | next :: rest => first.andThen (chain next rest)

/-- A function that goes through a list of rules, one an application; the last of them repeats. A
list of one rule hides that rule's kind like any other. -/
def inTurn (first : Rule T) (rest : List (Rule T)) : Rule T := closure (chain first rest)

end Rule

end TrustRegion
