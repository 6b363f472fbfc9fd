import TrustRegion.Proofs.Verdicts
import TrustRegion.Space.Euclidean

/-! Vectors of finite numbers: a product that comes out finite is one of finite vectors, wherever
sums and products are finite only if both of their operands are. -/
namespace TrustRegion

open Scalar (isFinite)

/-- Scalars whose sums and products are finite only if both operands are. -/
class ReflectsFinite (T : Type) [Scalar T] : Prop where
  isFinite_add (a b : T) : isFinite (a + b) = true → isFinite a = true ∧ isFinite b = true
  isFinite_mul (a b : T) : isFinite (a * b) = true → isFinite a = true ∧ isFinite b = true

namespace Dense

variable {T : Type} [Scalar T]

/-- A vector without an infinite entry or a NaN. -/
def IsFinite (x : List T) : Prop := ∀ a ∈ x, isFinite a = true

variable {x y terms : List T} {a : T}

theorem isFinite_cons : IsFinite (a :: x) ↔ isFinite a = true ∧ IsFinite x := by
  simp [IsFinite]

theorem isFinite_append : IsFinite (x ++ y) ↔ IsFinite x ∧ IsFinite y := by
  simp only [IsFinite, List.mem_append]
  exact ⟨fun h => ⟨fun a ha => h a (.inl ha), fun a ha => h a (.inr ha)⟩,
    fun ⟨hx, hy⟩ a ha => ha.elim (hx a) (hy a)⟩

theorem isFinite_of_zipWith {f : T → T → T}
    (hf : ∀ a b, isFinite (f a b) = true → isFinite a = true ∧ isFinite b = true)
    (same : x.length = y.length) (h : IsFinite (List.zipWith f x y)) : IsFinite x ∧ IsFinite y := by
  induction x generalizing y with
  | nil =>
    obtain rfl := List.eq_nil_of_length_eq_zero same.symm
    exact ⟨h, h⟩
  | cons a x ih =>
    cases y with
    | nil => cases same
    | cons b y =>
      obtain ⟨hab, hxy⟩ := isFinite_cons.mp h
      obtain ⟨ha, hb⟩ := hf a b hab
      obtain ⟨hx, hy⟩ := ih (Nat.succ.inj same) hxy
      exact ⟨isFinite_cons.mpr ⟨ha, hx⟩, isFinite_cons.mpr ⟨hb, hy⟩⟩

theorem length_addBlocks (blocks : Nat) {lanes : List T} (hlanes : lanes.length = 8)
    (enough : 8 * blocks ≤ terms.length) : (addBlocks blocks lanes terms).1.length = 8 := by
  induction blocks generalizing lanes terms with
  | zero => exact hlanes
  | succ blocks ih =>
    rw [addBlocks]
    apply ih
    · simp
      omega
    · simp
      omega

variable [ReflectsFinite T]

theorem isFinite_of_foldl (h : isFinite (terms.foldl (· + ·) a) = true) :
    isFinite a = true ∧ IsFinite terms := by
  induction terms generalizing a with
  | nil => exact ⟨h, fun _ hb => absurd hb List.not_mem_nil⟩
  | cons b terms ih =>
    obtain ⟨hab, hterms⟩ := ih h
    obtain ⟨ha, hb⟩ := ReflectsFinite.isFinite_add _ _ hab
    exact ⟨ha, isFinite_cons.mpr ⟨hb, hterms⟩⟩

/-- Lanes that are finite after all have been added to, with a finite rest, had finite terms. -/
theorem isFinite_of_addBlocks (blocks : Nat) {lanes : List T} (hlanes : lanes.length = 8)
    (enough : 8 * blocks ≤ terms.length) (h : IsFinite (addBlocks blocks lanes terms).1)
    (hrest : IsFinite (addBlocks blocks lanes terms).2) : IsFinite lanes ∧ IsFinite terms := by
  -- The lanes grow from block to block, so that the last ones answer for all blocks.
  induction blocks generalizing lanes terms with
  | zero => exact ⟨h, hrest⟩
  | succ blocks ih =>
    have htake : (terms.take 8).length = 8 := by
      rw [List.length_take]
      omega
    have hdrop : 8 * blocks ≤ (terms.drop 8).length := by
      rw [List.length_drop]
      omega
    have hsums : (List.zipWith (· + ·) lanes (terms.take 8)).length = 8 := by
      rw [List.length_zipWith, hlanes, htake]
      rfl
    obtain ⟨added, later⟩ := ih hsums hdrop h hrest
    obtain ⟨earlier, block⟩ :=
      isFinite_of_zipWith ReflectsFinite.isFinite_add (hlanes.trans htake.symm) added
    rw [← List.take_append_drop 8 terms]
    exact ⟨earlier, isFinite_append.mpr ⟨block, later⟩⟩

theorem isFinite_of_blockedSum (h : isFinite (blockedSum terms) = true) : IsFinite terms := by
  have enough : 8 * (terms.length / 8) ≤ terms.length := Nat.mul_div_le _ _
  have hzeros : (List.replicate 8 (0 : T)).length = 8 := List.length_replicate
  have hlanes := length_addBlocks _ hzeros enough
  obtain ⟨paired, rest⟩ := isFinite_of_foldl h
  obtain ⟨-, pairs⟩ := isFinite_of_foldl paired
  have same : ((addBlocks (terms.length / 8) (List.replicate 8 0) terms).1.take 4).length =
      ((addBlocks (terms.length / 8) (List.replicate 8 0) terms).1.drop 4).length := by
    rw [List.length_take, List.length_drop, hlanes]
    rfl
  obtain ⟨front, back⟩ := isFinite_of_zipWith ReflectsFinite.isFinite_add same pairs
  have lanes := isFinite_append.mpr ⟨front, back⟩
  rw [List.take_append_drop] at lanes
  exact (isFinite_of_addBlocks _ hzeros enough lanes rest).2

/-- The product of two vectors is finite only if every entry of both is. -/
theorem isFinite_of_dot (same : x.length = y.length) (h : isFinite (dot x y) = true) :
    IsFinite x ∧ IsFinite y :=
  isFinite_of_zipWith ReflectsFinite.isFinite_mul same (isFinite_of_blockedSum h)

end Dense

open RunM

section Calls

variable {T H P C : Type} [Scalar T] {x y : List T}

theorem yields_zerosLike :
    (zerosLike x : RunM T (Euclidean T) H P C (List T)).Yields (· = Dense.zeros x.length) := by
  intro run v run' h
  cases h
  rfl

theorem yields_copy :
    (copy x y : RunM T (Euclidean T) H P C (List T)).Yields (· = x) := by
  intro run v run' h
  simp only [copy, VectorSpace.copy, Euclidean.copy, sameLength] at h
  split at h
  · cases h
    rfl
  · cases h

theorem yields_dot_length :
    (dot x y : RunM T (Euclidean T) H P C T).Yields fun _ => x.length = y.length := by
  intro run a run' h
  simp only [dot, VectorSpace.dot, Euclidean.dot] at h
  split at h
  · next same => exact same
  · cases h

variable [ReflectsFinite T]

theorem yields_dot : (dot x y : RunM T (Euclidean T) H P C T).Yields fun a =>
    isFinite a = true → Dense.IsFinite x ∧ Dense.IsFinite y := by
  intro run a run' h finite
  simp only [dot, VectorSpace.dot, Euclidean.dot] at h
  split at h
  · next same =>
    cases h
    exact Dense.isFinite_of_dot same finite
  · cases h

end Calls

end TrustRegion
