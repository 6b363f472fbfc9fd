import TrustRegion.Solver.Event
import TrustRegion.Operator.Basic

/-!
The calls that a solve makes. Every call of a collaborator goes through this module, which records
it, keeps the collaborator's new state and passes its failure on. A failed run keeps all that it
has reached.
-/
namespace TrustRegion

/-- The four parties that a solve works with. -/
structure Collaborators (S H P C : Type) where
  space : S
  operator : H
  preconditioner : P
  test : C

/-- What a solve reports about the step while it builds it. -/
structure Figures (T : Type) where
  stepNorm : T
  objective : T
  iterations : Nat

def Figures.zero {T : Type} [Scalar T] : Figures T := ⟨0, 0, 0⟩

/-- A solve on its way: the collaborators as they are now, the figures, and the events so far, the
latest first. -/
structure Run (T S H P C : Type) extends Collaborators S H P C where
  figures : Figures T
  latest : List (Event T)

abbrev RunM (T S H P C : Type) := EStateM Failure (Run T S H P C)

namespace Run

variable {T V S H P C : Type}

def log (run : Run T S H P C) (event : Event T) : Run T S H P C :=
  { run with latest := event :: run.latest }

def ofWritten (callee : Callee) (written : Written V) (run : Run T S H P C) :
    EStateM.Result Failure (Run T S H P C) V :=
  let run := run.log (.called callee written.failure?)
  match written.failure? with
  | none => .ok written.content run
  | some failure => .error failure run

def ofAnswer (callee : Callee) (answer : Except Failure T) (run : Run T S H P C) :
    EStateM.Result Failure (Run T S H P C) T :=
  match answer with
  | .ok number => .ok number (run.log (.called callee none))
  | .error failure => .error failure (run.log (.called callee (some failure)))

end Run

namespace RunM

variable {T V S H P C : Type}

section Space

variable [VectorSpace T V S]

def dimension (x : V) : RunM T S H P C Nat := fun run =>
  .ok (VectorSpace.dimension run.space x) run

def zerosLike (x : V) : RunM T S H P C V := fun run =>
  .ok (VectorSpace.zerosLike run.space x) run

def copy (x y : V) : RunM T S H P C V := fun run =>
  let (written, space) := VectorSpace.copy run.space x y
  { run with space }.ofWritten (.space .copy) written

def dot (x y : V) : RunM T S H P C T := fun run =>
  let (answer, space) := VectorSpace.dot run.space x y
  { run with space }.ofAnswer (.space .dot) answer

def norm (x : V) : RunM T S H P C T := fun run =>
  let (answer, space) := VectorSpace.norm run.space x .two
  { run with space }.ofAnswer (.space .norm) answer

def axpy (a : T) (x y : V) : RunM T S H P C V := fun run =>
  let (written, space) := VectorSpace.axpy run.space a x y
  { run with space }.ofWritten (.space .axpy) written

def aypx (a : T) (x y : V) : RunM T S H P C V := fun run =>
  let (written, space) := VectorSpace.aypx run.space a x y
  { run with space }.ofWritten (.space .aypx) written

end Space

/-- Applies the operator to `x`, with the buffer `y`. -/
def operate [ActsOn V H] (x y : V) : RunM T S H P C V := fun run =>
  let (written, operator) := ActsOn.apply run.operator x y
  { run with operator }.ofWritten .operator written

/-- Applies the preconditioner to `r`, with the buffer `z`. -/
def precondition [ActsOn V P] (r z : V) : RunM T S H P C V := fun run =>
  let (written, preconditioner) := ActsOn.apply run.preconditioner r z
  { run with preconditioner }.ofWritten .preconditioner written

def evaluate [ConvergenceTest T C] (iteration : Nat) (norm : T) : RunM T S H P C Verdict :=
  fun run =>
    let remark? := ConvergenceTest.remark? run.test iteration norm
    let (verdict, test) := ConvergenceTest.evaluate run.test iteration norm
    .ok verdict ({ run with test }.log (.evaluated iteration norm verdict remark?))

def record (event : Event T) : RunM T S H P C Unit := fun run => .ok () (run.log event)

def note (note : Note T) : RunM T S H P C Unit := record (.noted note)

def iterations : RunM T S H P C Nat := fun run => .ok run.figures.iterations run

def countIteration : RunM T S H P C Unit := fun run =>
  .ok () { run with figures.iterations := run.figures.iterations + 1 }

def setStepNorm (stepNorm : T) : RunM T S H P C Unit := fun run =>
  .ok () { run with figures.stepNorm := stepNorm }

def mapObjective (f : T → T) : RunM T S H P C Unit := fun run =>
  .ok () { run with figures.objective := f run.figures.objective }

end RunM

end TrustRegion
