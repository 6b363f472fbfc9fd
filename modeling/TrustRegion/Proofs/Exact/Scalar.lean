import Mathlib.Analysis.Real.Sqrt
import TrustRegion.Scalar.Basic

/-! Exact arithmetic as scalars: the real numbers, and one value for what has no real result. -/
namespace TrustRegion

/-- A real number, or the result of an operation that has none, which counts as not finite. -/
inductive Exact where
  | real (x : ℝ)
  | undefined

noncomputable section
namespace Exact

def map (f : ℝ → ℝ) : Exact → Exact
  | real x => real (f x)
  | undefined => undefined

def map₂ (f : ℝ → ℝ → ℝ) : Exact → Exact → Exact
  | real x, real y => real (f x y)
  | _, _ => undefined

/-- Undefined values stand in no relation. -/
def Rel (r : ℝ → ℝ → Prop) : Exact → Exact → Prop
  | real x, real y => r x y
  | _, _ => False

/-- There is no quotient by zero. -/
def div : Exact → Exact → Exact
  | real x, real y => if y = 0 then undefined else real (x / y)
  | _, _ => undefined

def sqrt : Exact → Exact
  | real x => if 0 ≤ x then real (√x) else undefined
  | undefined => undefined

def isReal : Exact → Bool
  | real _ => true
  | undefined => false

def toReal : Exact → ℝ
  | real x => x
  | undefined => 0

open Classical in
/-- Reports show nothing of an exact number. -/
instance : Scalar Exact where
  zero := real 0
  one := real 1
  add := map₂ (· + ·)
  sub := map₂ (· - ·)
  mul := map₂ (· * ·)
  div := div
  neg := map (- ·)
  lt := Rel (· < ·)
  le := Rel (· ≤ ·)
  beq x y := decide (Rel (· = ·) x y)
  decideLT x y := propDecidable (Rel (· < ·) x y)
  decideLE x y := propDecidable (Rel (· ≤ ·) x y)
  sqrt := sqrt
  abs := map (|·|)
  isNaN x := !x.isReal
  isFinite := isReal
  toFloat _ := 0
  text _ := ""

variable {x y : ℝ}

@[simp] theorem zero_eq : (0 : Exact) = real 0 := rfl

@[simp] theorem one_eq : (1 : Exact) = real 1 := rfl

@[simp] theorem real_add : real x + real y = real (x + y) := rfl

@[simp] theorem real_sub : real x - real y = real (x - y) := rfl

@[simp] theorem real_mul : real x * real y = real (x * y) := rfl

@[simp] theorem real_neg : -real x = real (-x) := rfl

@[simp] theorem real_lt : real x < real y ↔ x < y := Iff.rfl

@[simp] theorem real_le : real x ≤ real y ↔ x ≤ y := Iff.rfl

@[simp] theorem real_beq : (real x == real y) = decide (x = y) := rfl

@[simp] theorem abs_real : Scalar.abs (real x) = real |x| := rfl

@[simp] theorem isFinite_real : Scalar.isFinite (real x) = true := rfl

@[simp] theorem isFinite_undefined : Scalar.isFinite undefined = false := rfl

@[simp] theorem isNaN_real : Scalar.isNaN (real x) = false := rfl

@[simp] theorem isNaN_undefined : Scalar.isNaN undefined = true := rfl

theorem nonneg_of_real_lt {r : Exact} (hx : 0 ≤ x) (h : real x < r) : 0 ≤ r := by
  cases r with
  | real y => exact hx.trans (real_lt.mp h).le
  | undefined => cases h

theorem le_trans {a b c : Exact} (hab : a ≤ b) (hbc : b ≤ c) : a ≤ c := by
  cases a with
  | undefined => exact hab.elim
  | real x =>
    cases b with
    | undefined => exact hab.elim
    | real y =>
      cases c with
      | undefined => exact hbc.elim
      | real z => exact (real_le.mp hab).trans (real_le.mp hbc)

theorem real_div (hy : y ≠ 0) : real x / real y = real (x / y) := if_neg hy

@[simp] theorem real_div_zero : real x / real 0 = undefined := if_pos rfl

theorem sqrt_real (hx : 0 ≤ x) : Scalar.sqrt (real x) = real (√x) := if_pos hx

@[simp] theorem two_eq : (Scalar.two : Exact) = real 2 := by
  simp [Scalar.two, one_add_one_eq_two]

@[simp] theorem half_eq : (Scalar.half : Exact) = real (1 / 2) := by
  simp [Scalar.half, real_div]

theorem larger_real : Scalar.larger (real x) (real y) = real (max x y) := by
  by_cases hlt : x < y
  · simp [Scalar.larger, hlt, max_eq_right hlt.le]
  · simp [Scalar.larger, hlt, max_eq_left (not_lt.mp hlt)]

end Exact
end

end TrustRegion
