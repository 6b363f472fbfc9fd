import Mathlib.Analysis.InnerProductSpace.PiL2
import TrustRegion.Proofs.Exact.Scalar
import TrustRegion.Space.Euclidean

/-! Lists of exact numbers as vectors of a real inner product space. -/
namespace TrustRegion

open scoped RealInnerProductSpace

abbrev RealVector (n : ℕ) := EuclideanSpace ℝ (Fin n)

def entries {n : ℕ} (x : RealVector n) : List Exact := List.ofFn fun i => .real (x i)

section Sum

theorem Dense.addBlocks_real (blocks : ℕ) (lanes terms : List ℝ) (hl : lanes.length = 8)
    (ht : 8 * blocks ≤ terms.length) :
    ∃ lanes' rest : List ℝ,
      Dense.addBlocks blocks (lanes.map Exact.real) (terms.map Exact.real) =
        (lanes'.map Exact.real, rest.map Exact.real) ∧
      lanes'.length = 8 ∧ lanes'.sum + rest.sum = lanes.sum + terms.sum := by
  induction blocks generalizing lanes terms with
  | zero => exact ⟨lanes, terms, rfl, hl, rfl⟩
  | succ blocks ih =>
    have hlen : lanes.length = (terms.take 8).length := by
      rw [List.length_take]
      omega
    obtain ⟨lanes', rest, heq, hl', hsum⟩ :=
      ih (List.zipWith (· + ·) lanes (terms.take 8)) (terms.drop 8)
        (by rw [List.length_zipWith, ← hlen, min_self, hl])
        (by rw [List.length_drop]; omega)
    refine ⟨lanes', rest, ?_, hl', ?_⟩
    · rw [Dense.addBlocks, ← heq, ← List.map_take, ← List.map_drop, List.zipWith_map,
        List.map_zipWith]
      rfl
    · have hz : (List.zipWith (· + ·) lanes (terms.take 8)).sum =
          lanes.sum + (terms.take 8).sum :=
        (List.sum_add_sum_eq_sum_zipWith_of_length_eq _ _ hlen).symm
      rw [hsum, hz, add_assoc, ← List.sum_append, List.take_append_drop]

theorem foldl_real (terms : List ℝ) (x : ℝ) :
    (terms.map Exact.real).foldl (· + ·) (.real x) = .real (x + terms.sum) := by
  induction terms generalizing x with
  | nil => simp
  | cons t terms ih => simp [ih, add_assoc]

/-- The order of the additions does not matter to a blocked sum. -/
theorem Dense.blockedSum_real (terms : List ℝ) :
    Dense.blockedSum (terms.map Exact.real) = .real terms.sum := by
  obtain ⟨lanes, rest, heq, hl, hsum⟩ := Dense.addBlocks_real (terms.length / 8)
    (List.replicate 8 0) terms (by simp) (by omega)
  have hpair : (List.zipWith (· + ·) (lanes.take 4) (lanes.drop 4)).sum = lanes.sum := by
    rw [← List.sum_add_sum_eq_sum_zipWith_of_length_eq _ _ (by simp [hl]), ← List.sum_append,
      List.take_append_drop]
  have hlift : List.zipWith (· + ·) ((lanes.map Exact.real).take 4)
      ((lanes.map Exact.real).drop 4) =
        (List.zipWith (· + ·) (lanes.take 4) (lanes.drop 4)).map Exact.real := by
    rw [← List.map_take, ← List.map_drop, List.zipWith_map, List.map_zipWith]
    rfl
  have hzero : List.replicate 8 (0 : Exact) = (List.replicate 8 (0 : ℝ)).map Exact.real := by
    simp
  unfold Dense.blockedSum
  rw [List.length_map, hzero, heq]
  simp only [hlift, Exact.zero_eq, foldl_real, hpair, zero_add, hsum]
  simp

end Sum

variable {n : ℕ} (a : ℝ) (x y : RealVector n)

@[simp] theorem length_entries : (entries x).length = n := by simp [entries]

theorem entries_eq_map : entries x = (List.ofFn x).map Exact.real := by simp [entries]; rfl

theorem entries_smul : entries (a • x) = (entries x).map (.real a * ·) := by
  simp [entries, Function.comp_def]

theorem entries_injective : Function.Injective (entries (n := n)) := by
  intro x y h
  ext i
  simpa using congrFun (List.ofFn_injective h) i

theorem exists_entries {l : List ℝ} (h : l.length = n) :
    ∃ x : RealVector n, l.map Exact.real = entries x := by
  subst h
  refine ⟨WithLp.toLp 2 l.get, ?_⟩
  rw [entries_eq_map]
  congr 1
  exact (List.ofFn_get l).symm

theorem zipWith_entries (f : Exact → Exact → Exact) :
    List.zipWith f (entries x) (entries y) = List.ofFn fun i => f (.real (x i)) (.real (y i)) := by
  apply List.ext_getElem <;> simp [entries]

theorem zeros_eq_entries : Dense.zeros n = entries (0 : RealVector n) := by
  simp [Dense.zeros, entries, List.ofFn_const]

theorem Dense.dot_entries : Dense.dot (entries x) (entries y) = .real ⟪x, y⟫ := by
  have hmap : List.zipWith (· * ·) (entries x) (entries y) =
      (List.ofFn fun i => x i * y i).map Exact.real := by
    rw [zipWith_entries, List.map_ofFn]
    rfl
  unfold Dense.dot
  rw [hmap, Dense.blockedSum_real, List.sum_ofFn, PiLp.inner_apply]
  simp [mul_comm]

theorem Dense.norm_entries : Dense.norm (entries x) .two = .real ‖x‖ := by
  rw [Dense.norm, Dense.dot_entries, Exact.sqrt_real real_inner_self_nonneg,
    real_inner_self_eq_norm_sq, Real.sqrt_sq (norm_nonneg x)]

/-- With a zero coefficient the buffer is not read, whatever it holds. -/
theorem Dense.combine_zero (x y : List Exact) :
    Dense.combine (.real a) x (.real 0) y = x.map (.real a * ·) :=
  if_pos (by simp)

theorem Dense.combine_entries (b : ℝ) :
    Dense.combine (.real a) (entries x) (.real b) (entries y) = entries (a • x + b • y) := by
  by_cases hb : b = 0
  · rw [hb, Dense.combine_zero, zero_smul, add_zero, entries_smul]
  · have nonzero : (Exact.real b == 0) = false := by simp [hb]
    unfold Dense.combine
    rw [nonzero, if_neg Bool.false_ne_true, zipWith_entries]
    simp [entries]

theorem Dense.combine_one_right :
    Dense.combine (.real a) (entries x) (.real 1) (entries y) = entries (y + a • x) := by
  rw [Dense.combine_entries, one_smul, add_comm]

theorem Dense.combine_one_left :
    Dense.combine (.real 1) (entries x) (.real a) (entries y) = entries (x + a • y) := by
  rw [Dense.combine_entries, one_smul]

end TrustRegion
