import TrustRegion.Space.Basic

/-!
Lists of numbers as vectors, and the Euclidean space over them.

The order of the operations is part of the result in rounded arithmetic. The dot product runs over
blocks of eight with one partial sum a lane and then over what is left.
-/
namespace TrustRegion

namespace Dense

variable {T : Type} [Scalar T]

/-- Adds `blocks` blocks of eight terms to the lanes, entry by entry, and returns what is left. -/
def addBlocks : Nat → List T → List T → List T × List T
  | 0, lanes, terms => (lanes, terms)
  | blocks + 1, lanes, terms =>
    addBlocks blocks (List.zipWith (· + ·) lanes (terms.take 8)) (terms.drop 8)

/-- A sum in blocks of eight: lane `k` is joined with lane `k + 4`, the four pairs are added in
order, and the terms that fill no block follow one by one. -/
def blockedSum (terms : List T) : T :=
  let (lanes, rest) := addBlocks (terms.length / 8) (List.replicate 8 0) terms
  let paired := List.zipWith (· + ·) (lanes.take 4) (lanes.drop 4)
  rest.foldl (· + ·) (paired.foldl (· + ·) 0)

def dot (x y : List T) : T := blockedSum (List.zipWith (· * ·) x y)

/-- `a x + b y` entry by entry; `y` is not read when `b` is zero. -/
def combine (a : T) (x : List T) (b : T) (y : List T) : List T :=
  if b == 0 then x.map (a * ·) else List.zipWith (fun xi yi => a * xi + b * yi) x y

/-- The largest absolute value from `bound` upwards, or the first NaN. -/
def largest (bound : T) : List T → T
  | [] => bound
  | x :: xs =>
    if Scalar.isNaN x then x else largest (Scalar.larger bound (Scalar.abs x)) xs

def norm (x : List T) : NormKind → T
  | .two => Scalar.sqrt (dot x x)
  | .infinity => largest 0 x

def zeros (n : Nat) : List T := List.replicate n 0

@[simp] theorem length_zeros (n : Nat) : (zeros n : List T).length = n := by simp [zeros]

theorem length_combine (a : T) (x : List T) (b : T) (y : List T) (h : x.length = y.length) :
    (combine a x b y).length = y.length := by
  unfold combine
  split <;> simp [h]

end Dense

/-- Writes `content` to a buffer `y` of the length of `x`; a buffer of another length stays as it
is. -/
def sameLength {T : Type} (x y content : List T) : Written (List T) :=
  if x.length = y.length then { content }
  else { content := y, failure? := some (.lengths x.length y.length) }

/-- The space of lists under the standard inner product. -/
structure Euclidean (T : Type) where

namespace Euclidean

variable {T : Type} [Scalar T]

def copy (x y : List T) : Written (List T) := sameLength x y x

def dot (x y : List T) : Except Failure T :=
  if x.length = y.length then .ok (Dense.dot x y) else .error (.lengths x.length y.length)

def axpy (a : T) (x y : List T) : Written (List T) := sameLength x y (Dense.combine a x 1 y)

def aypx (a : T) (x y : List T) : Written (List T) := sameLength x y (Dense.combine 1 x a y)

def axpby (a : T) (x : List T) (b : T) (y : List T) : Written (List T) :=
  sameLength x y (Dense.combine a x b y)

instance : VectorSpace T (List T) (Euclidean T) where
  dimension _ x := x.length
  zerosLike _ x := Dense.zeros x.length
  setZero _ x := Dense.zeros x.length
  copy s x y := (copy x y, s)
  dot s x y := (dot x y, s)
  norm s x kind := (.ok (Dense.norm x kind), s)
  axpy s a x y := (axpy a x y, s)
  aypx s a x y := (aypx a x y, s)
  axpby s a x b y := (axpby a x b y, s)

end Euclidean

end TrustRegion
