import TrustRegion.Space.Euclidean
import TrustRegion.Operator.Basic

/-!
Dense matrices. A product checks its shapes first; a buffer of the wrong length stays as it is.
-/
namespace TrustRegion

/-- A matrix by rows. The number of columns is kept beside them: a matrix without rows has one. -/
structure Matrix (T : Type) where
  columns : Nat
  rows : List (List T)
  length_eq : ∀ row ∈ rows, row.length = columns

namespace Matrix

variable {T : Type}

def rowsOf (columns : Nat) : Nat → List T → List (List T)
  | 0, _ => []
  | count + 1, data => data.take columns :: rowsOf columns count (data.drop columns)

theorem length_of_mem_rowsOf {columns : Nat} {count : Nat} {data row : List T}
    (h : data.length = count * columns) (hr : row ∈ rowsOf columns count data) :
    row.length = columns := by
  induction count generalizing data with
  | zero => simp [rowsOf] at hr
  | succ n ih =>
    rw [Nat.succ_mul] at h
    rw [rowsOf, List.mem_cons] at hr
    obtain rfl | hr := hr
    · simp; omega
    · exact ih (by simp; omega) hr

def ofRowMajor? (count columns : Nat) (data : List T) : Option (Matrix T) :=
  if h : data.length = count * columns then
    some ⟨columns, rowsOf columns count data, fun _ => length_of_mem_rowsOf h⟩
  else none

def shape (A : Matrix T) : String := s!"{A.rows.length}x{A.columns}"

variable [Scalar T]

/-- A row times a vector: the first product, to which the others are added in order. -/
def rowTimes : List T → List T → T
  | a :: row, x :: xs => (List.zipWith (· * ·) row xs).foldl (fun sum term => term + sum) (a * x)
  | _, _ => 0

def times (A : Matrix T) (x : List T) : List T := A.rows.map (rowTimes · x)

@[simp] theorem length_times (A : Matrix T) (x : List T) : (A.times x).length = A.rows.length := by
  simp [times]

/-- Writes `A x` to a buffer of as many entries as `A` has rows. -/
def apply (A : Matrix T) (x y : List T) : Written (List T) :=
  if A.columns = x.length ∧ A.rows.length = y.length then { content := A.times x }
  else
    { content := y
      failure? := some (.dimensionMismatch A.shape s!"x: {x.length}, y: {y.length}") }

/-- The entries `A[i, i]` from row `i` on. -/
def diagonalFrom (i : Nat) : List (List T) → List T
  | [] => []
  | row :: rows => (row.drop i).head?.toList ++ diagonalFrom (i + 1) rows

def diagonal (A : Matrix T) : List T := diagonalFrom 0 A.rows

end Matrix

end TrustRegion
