import TrustRegion.Text.Keyword

/-!
What is chosen before a solve: the radius and the norms by which steps and residuals are measured.
-/
namespace TrustRegion

/-- The norm in which the step is held against the radius. -/
inductive DirectionNorm where
  /-- The norm of the preconditioner's matrix, updated by recurrence. -/
  | preconditioned
  /-- The norm of the space, recomputed in every iteration. -/
  | unpreconditioned
  deriving DecidableEq, Repr

namespace DirectionNorm

def all : List DirectionNorm := [preconditioned, unpreconditioned]

def keyword : DirectionNorm → String
  | preconditioned => "preconditioned"
  | unpreconditioned => "unpreconditioned"

def code : DirectionNorm → String
  | preconditioned => "Preconditioned"
  | unpreconditioned => "Unpreconditioned"

def ofText (s : String) : Except Failure DirectionNorm :=
  Text.readKeyword "direction_norm" "expected `preconditioned` or `unpreconditioned`"
    (all.map fun n => (n.keyword, n)) s

end DirectionNorm

/-- The norm of the residual `r` that the convergence test is asked about; `z` is the
preconditioned residual. -/
inductive ResidualNorm where
  /-- The norm of `z`. -/
  | preconditioned
  /-- The norm of `r`. -/
  | unpreconditioned
  /-- The square root of `r` times `z`. -/
  | natural
  deriving DecidableEq, Repr

namespace ResidualNorm

def all : List ResidualNorm := [preconditioned, unpreconditioned, natural]

def keyword : ResidualNorm → String
  | preconditioned => "preconditioned"
  | unpreconditioned => "unpreconditioned"
  | natural => "natural"

def code : ResidualNorm → String
  | preconditioned => "Preconditioned"
  | unpreconditioned => "Unpreconditioned"
  | natural => "Natural"

def ofText (s : String) : Except Failure ResidualNorm :=
  Text.readKeyword "norm_type" "expected `preconditioned`, `unpreconditioned` or `natural`"
    (all.map fun n => (n.keyword, n)) s

end ResidualNorm

/-- A radius of zero leaves the step unconstrained. -/
structure Settings (T : Type) where
  radius : T
  directionNorm : DirectionNorm
  residualNorm : ResidualNorm
  keepsHistory : Bool

namespace Settings

variable {T : Type} [Scalar T]

/-- No radius, unpreconditioned norms, no history. -/
def standard : Settings T := ⟨0, .unpreconditioned, .unpreconditioned, false⟩

/-- A radius is admissible unless it is NaN or negative. -/
def checkRadius (radius : T) : Except Failure Unit :=
  if Scalar.isNaN radius || decide (radius < 0) then
    .error (.invalidArgument "radius" (Scalar.text radius)
      "trust-region radius must be non-negative")
  else .ok ()

def validate (s : Settings T) : Except Failure Unit := checkRadius s.radius

end Settings

end TrustRegion
