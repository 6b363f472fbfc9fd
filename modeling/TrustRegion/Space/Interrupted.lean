import TrustRegion.Space.Basic

/-!
A space that fails at one chosen call, for trying out how a solve takes a failing collaborator.
-/
namespace TrustRegion

inductive SpaceOp where
  | copy
  | dot
  | norm
  | axpy
  | aypx
  | axpby
  deriving DecidableEq, Repr

def SpaceOp.name : SpaceOp → String
  | copy => "copy"
  | dot => "dot"
  | norm => "norm"
  | axpy => "axpy"
  | aypx => "aypx"
  | axpby => "axpby"

/-- The space `inner`, whose call of `op` after `remaining` others of that kind fails. Once it has
failed, no further call does. -/
structure Interrupted (S : Type) where
  inner : S
  op : SpaceOp
  remaining : Option Nat
  failure : Failure

namespace Interrupted

variable {T V S : Type} [VectorSpace T V S]

/-- Counts a call of `op`; says whether it is the one that fails. -/
def tick (s : Interrupted S) (op : SpaceOp) : Bool × Interrupted S :=
  if op = s.op then
    match s.remaining with
    | none => (false, s)
    | some 0 => (true, { s with remaining := none })
    | some (n + 1) => (false, { s with remaining := some n })
  else (false, s)

def write (s : Interrupted S) (op : SpaceOp) (y : V) (call : S → Written V × S) :
    Written V × Interrupted S :=
  match s.tick op with
  | (true, s) => ({ content := y, failure? := some s.failure }, s)
  | (false, s) =>
    let (written, inner) := call s.inner
    (written, { s with inner })

def answer (s : Interrupted S) (op : SpaceOp) (call : S → Except Failure T × S) :
    Except Failure T × Interrupted S :=
  match s.tick op with
  | (true, s) => (.error s.failure, s)
  | (false, s) =>
    let (number, inner) := call s.inner
    (number, { s with inner })

instance : VectorSpace T V (Interrupted S) where
  dimension s := VectorSpace.dimension s.inner
  zerosLike s := VectorSpace.zerosLike s.inner
  setZero s := VectorSpace.setZero s.inner
  copy s x y := s.write .copy y (VectorSpace.copy · x y)
  dot s x y := s.answer .dot (VectorSpace.dot · x y)
  norm s x kind := s.answer .norm (VectorSpace.norm · x kind)
  axpy s a x y := s.write .axpy y (VectorSpace.axpy · a x y)
  aypx s a x y := s.write .aypx y (VectorSpace.aypx · a x y)
  axpby s a x b y := s.write .axpby y (VectorSpace.axpby · a x b y)

end Interrupted

end TrustRegion
