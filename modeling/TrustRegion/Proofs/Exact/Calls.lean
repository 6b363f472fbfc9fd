import TrustRegion.Proofs.Exact.Vector
import TrustRegion.Proofs.Finite

/-! Collaborators that answer real vectors with real vectors, and what calling them does. -/
namespace TrustRegion

open scoped RealInnerProductSpace
open Scalar (isFinite)

instance : ReflectsFinite Exact where
  isFinite_add a b h := by
    cases a with
    | undefined => cases h
    | real x =>
      cases b with
      | undefined => cases h
      | real y => exact ⟨rfl, rfl⟩
  isFinite_mul a b h := by
    cases a with
    | undefined => cases h
    | real x =>
      cases b with
      | undefined => cases h
      | real y => exact ⟨rfl, rfl⟩

theorem Exact.eq_real_of_isFinite {a : Exact} (h : isFinite a = true) : ∃ x, a = real x := by
  cases a with
  | real x => exact ⟨x, rfl⟩
  | undefined => cases h

theorem Dense.exists_map_real {x : List Exact} (h : IsFinite x) :
    ∃ l : List ℝ, x = l.map .real := by
  refine ⟨x.map Exact.toReal, ?_⟩
  rw [List.map_map]
  refine ((List.map_congr_left fun a ha => ?_).trans (List.map_id x)).symm
  obtain ⟨t, rfl⟩ := Exact.eq_real_of_isFinite (h a ha)
  rfl

section Objects

variable {n : ℕ} {A : Type} [ActsOn (List Exact) A]

/-- What an object becomes by being applied to vectors of `n` real entries. -/
inductive Becomes (n : ℕ) (a : A) : A → Prop where
  | refl : Becomes n a a
  | apply {a' : A} (h : Becomes n a a') (x y : RealVector n) :
      Becomes n a (ActsOn.apply a' (entries x) (entries y)).2

/-- An object that leaves real numbers, as many as it likes, whenever it succeeds. -/
def StaysReal (n : ℕ) (a : A) : Prop :=
  ∀ a', Becomes n a a' → ∀ x y : RealVector n,
    (ActsOn.apply a' (entries x) (entries y)).1.failure? = none →
      ∃ l : List ℝ, (ActsOn.apply a' (entries x) (entries y)).1.content = l.map .real

/-- An object that leaves the value of `f` whenever it succeeds. -/
def Computes (f : RealVector n → RealVector n) (a : A) : Prop :=
  ∀ a', Becomes n a a' → ∀ x y : RealVector n,
    (ActsOn.apply a' (entries x) (entries y)).1.failure? = none →
      (ActsOn.apply a' (entries x) (entries y)).1.content = entries (f x)

/-- An object that stands to its argument in the relation by what it leaves, if that is a vector of
real numbers. Strictly it leaves nothing but real numbers. -/
def Allows (strict : Prop) (R : RealVector n → RealVector n → Prop) (a : A) : Prop :=
  ∀ a', Becomes n a a' → ∀ x y : RealVector n,
    (ActsOn.apply a' (entries x) (entries y)).1.failure? = none →
      (strict → ∃ l : List ℝ, (ActsOn.apply a' (entries x) (entries y)).1.content = l.map .real) ∧
        ∀ z, (ActsOn.apply a' (entries x) (entries y)).1.content = entries z → R x z

def Answers (R : RealVector n → RealVector n → Prop) (a : A) : Prop := Allows True R a

variable {strict : Prop} {R : RealVector n → RealVector n → Prop} {f : RealVector n → RealVector n}
  {a b c : A}

theorem StaysReal.answers (h : StaysReal n a) : Answers (fun _ _ : RealVector n => True) a :=
  fun a' ha x y hs => ⟨fun _ => h a' ha x y hs, fun _ _ => trivial⟩

theorem Answers.allows (h : Answers R a) : Allows strict R a :=
  fun a' ha x y hs => ⟨fun _ => (h a' ha x y hs).1 trivial, (h a' ha x y hs).2⟩

theorem allows_any (a : A) : Allows False (fun _ _ : RealVector n => True) a :=
  fun _ _ _ _ _ => ⟨False.elim, fun _ _ => trivial⟩

theorem Computes.staysReal (h : Computes f a) : StaysReal n a :=
  fun a' ha x y hs => ⟨List.ofFn (f x), by rw [h a' ha x y hs, entries_eq_map]⟩

theorem Computes.answers (h : Computes f a) : Answers (fun x z => z = f x) a := by
  intro a' ha x y hs
  refine ⟨fun _ => h.staysReal a' ha x y hs, fun z hz => ?_⟩
  rw [h a' ha x y hs] at hz
  exact (entries_injective hz).symm

theorem Becomes.trans (hab : Becomes n a b) (hbc : Becomes n b c) : Becomes n a c := by
  induction hbc with
  | refl => exact hab
  | apply _ x y ih => exact ih.apply x y

theorem Allows.apply (h : Allows strict R a) (x y : RealVector n) :
    Allows strict R (ActsOn.apply a (entries x) (entries y)).2 :=
  fun a' ha => h a' ((Becomes.refl.apply x y).trans ha)

end Objects

section Space

variable {n : ℕ} {H P C : Type} (a : ℝ) (x y : RealVector n)
  (run : Run Exact (Euclidean Exact) H P C)

namespace RunM

theorem zerosLike_entries :
    (zerosLike (entries x) : RunM _ _ H P C _) run = .ok (entries (0 : RealVector n)) run := by
  simp [zerosLike, VectorSpace.zerosLike, zeros_eq_entries]

theorem copy_entries :
    (copy (entries x) (entries y) : RunM _ _ H P C _) run =
      .ok (entries x) (run.log (.called (.space .copy) none)) := by
  simp [copy, VectorSpace.copy, Euclidean.copy, sameLength, Run.ofWritten]

theorem dot_entries :
    (dot (entries x) (entries y) : RunM _ _ H P C _) run =
      .ok (.real ⟪x, y⟫) (run.log (.called (.space .dot) none)) := by
  simp [dot, VectorSpace.dot, Euclidean.dot, Dense.dot_entries, Run.ofAnswer]

theorem norm_entries :
    (norm (entries x) : RunM _ _ H P C _) run =
      .ok (.real ‖x‖) (run.log (.called (.space .norm) none)) := by
  simp [norm, VectorSpace.norm, Dense.norm_entries, Run.ofAnswer]

theorem axpy_entries :
    (axpy (.real a) (entries x) (entries y) : RunM _ _ H P C _) run =
      .ok (entries (y + a • x)) (run.log (.called (.space .axpy) none)) := by
  simp [axpy, VectorSpace.axpy, Euclidean.axpy, sameLength, Dense.combine_one_right, Run.ofWritten]

theorem aypx_entries :
    (aypx (.real a) (entries x) (entries y) : RunM _ _ H P C _) run =
      .ok (entries (x + a • y)) (run.log (.called (.space .aypx) none)) := by
  simp [aypx, VectorSpace.aypx, Euclidean.aypx, sameLength, Dense.combine_one_left, Run.ofWritten]

variable {a x run} {l : List ℝ} {run' : Run Exact (Euclidean Exact) H P C}

theorem dot_eq_ok {v : Exact} (h : dot (entries x) (l.map .real) run = .ok v run') :
    ∃ z : RealVector n, l.map .real = entries z ∧ v = .real ⟪x, z⟫ ∧
      run' = run.log (.called (.space .dot) none) := by
  have hl : l.length = n := by
    by_contra hl
    simp [dot, VectorSpace.dot, Euclidean.dot, Run.ofAnswer, Ne.symm hl] at h
  obtain ⟨z, hz⟩ := exists_entries hl
  rw [hz, dot_entries] at h
  cases h
  exact ⟨z, hz, rfl, rfl⟩

/-- A product that is a real number is one of real vectors. -/
theorem dot_eq_ok_of_isFinite {c : List Exact} {v : Exact} (h : dot (entries x) c run = .ok v run')
    (finite : isFinite v = true) :
    ∃ z : RealVector n, c = entries z ∧ v = .real ⟪x, z⟫ ∧
      run' = run.log (.called (.space .dot) none) := by
  obtain ⟨l, rfl⟩ := Dense.exists_map_real (yields_dot h finite).2
  exact dot_eq_ok h

theorem aypx_eq_ok {c : List Exact}
    (h : aypx (.real a) (entries x) (l.map .real) run = .ok c run') :
    ∃ z : RealVector n, l.map .real = entries z ∧ c = entries (x + a • z) ∧
      run' = run.log (.called (.space .aypx) none) := by
  have hl : l.length = n := by
    by_contra hl
    simp [aypx, VectorSpace.aypx, Euclidean.aypx, sameLength, Run.ofWritten, Ne.symm hl] at h
  obtain ⟨z, hz⟩ := exists_entries hl
  rw [hz, aypx_entries] at h
  cases h
  exact ⟨z, hz, rfl, rfl⟩

end RunM

end Space

section Applications

variable {n : ℕ} {H P C : Type} [ActsOn (List Exact) H] [ActsOn (List Exact) P]
  {strict : Prop} {act pre : RealVector n → RealVector n → Prop}
  {run run' : Run Exact (Euclidean Exact) H P C}

structure Run.Heeds (strict : Prop) (act pre : RealVector n → RealVector n → Prop)
    (run : Run Exact (Euclidean Exact) H P C) : Prop where
  operator : Allows strict act run.operator
  preconditioner : Answers pre run.preconditioner

abbrev Run.Obeys (act pre : RealVector n → RealVector n → Prop)
    (run : Run Exact (Euclidean Exact) H P C) : Prop :=
  run.Heeds True act pre

theorem Run.Heeds.of_eq (h : run.Heeds strict act pre) (ho : run'.operator = run.operator)
    (hp : run'.preconditioner = run.preconditioner) : run'.Heeds strict act pre :=
  ⟨ho ▸ h.operator, hp ▸ h.preconditioner⟩

theorem Run.Heeds.obeys (h : run.Heeds strict act pre) (hs : strict) : run.Obeys act pre :=
  ⟨eq_true hs ▸ h.operator, h.preconditioner⟩

namespace RunM

variable {x y : RealVector n} {c : List Exact}

theorem operate_eq_ok (h : operate (entries x) (entries y) run = .ok c run')
    (hrun : run.Heeds strict act pre) :
    (strict → ∃ l : List ℝ, c = l.map .real) ∧ (∀ z, c = entries z → act x z) ∧
      run'.Heeds strict act pre ∧ run'.figures = run.figures := by
  simp only [operate, Run.ofWritten] at h
  split at h
  · next hs =>
    cases h
    obtain ⟨real, acts⟩ := hrun.operator _ .refl x y hs
    exact ⟨real, acts, ⟨hrun.operator.apply x y, hrun.preconditioner⟩, rfl⟩
  · cases h

theorem precondition_eq_ok (h : precondition (entries x) (entries y) run = .ok c run')
    (hrun : run.Heeds strict act pre) :
    (∃ l : List ℝ, c = l.map .real) ∧ (∀ z, c = entries z → pre x z) ∧
      run'.Heeds strict act pre ∧ run'.figures = run.figures := by
  simp only [precondition, Run.ofWritten] at h
  split at h
  · next hs =>
    cases h
    obtain ⟨real, answers⟩ := hrun.preconditioner _ .refl x y hs
    exact ⟨real trivial, answers, ⟨hrun.operator, Allows.apply hrun.preconditioner x y⟩, rfl⟩
  · cases h

omit [ActsOn (List Exact) H] in
theorem precondition_written {v x y : List Exact} (h : precondition x y run = .ok v run') :
    (ActsOn.apply run.preconditioner x y).1 = { content := v } :=
  Run.written_of_ofWritten h

end RunM

end Applications

end TrustRegion
