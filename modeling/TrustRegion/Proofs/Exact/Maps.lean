import TrustRegion.Proofs.Exact.Scaling
import TrustRegion.Proofs.Maps

/-! The shipped maps in exact arithmetic: each multiplies by the matrix that it represents, and maps
that represent one matrix leave the same. -/
namespace TrustRegion

noncomputable section

variable {m n : ℕ}

def multiply (a : Fin m → Fin n → ℝ) (x : RealVector n) : RealVector m :=
  WithLp.toLp _ fun i => ∑ j, a i j * x j

def diag (d : Fin n → ℝ) (i j : Fin n) : ℝ := if i = j then d i else 0

theorem multiply_diag (d : Fin n → ℝ) (x : RealVector n) :
    multiply (diag d) x = WithLp.toLp 2 fun i => d i * x i := by
  simp [multiply, diag]

theorem multiply_one (x : RealVector n) : multiply (diag 1) x = x := by
  rw [multiply_diag]
  ext i
  simp

section Dense

def Matrix.ofReal (a : Fin m → Fin n → ℝ) : Matrix Exact where
  columns := n
  rows := List.ofFn fun i => entries (n := n) (WithLp.toLp _ (a i))
  length_eq row hrow := by
    obtain ⟨i, rfl⟩ := List.mem_ofFn.mp hrow
    exact length_entries _

theorem foldl_onto_real (terms : List ℝ) (x : ℝ) :
    (terms.map Exact.real).foldl (fun sum term => term + sum) (.real x) =
      .real (terms.sum + x) := by
  induction terms generalizing x with
  | nil => simp
  | cons t terms ih =>
    rw [List.map_cons, List.foldl_cons, Exact.real_add, ih, List.sum_cons]
    congr 1
    ring

/-- The order of the additions does not matter to the product of a row. -/
theorem Matrix.rowTimes_real {row x : List ℝ} (same : row.length = x.length) :
    rowTimes (row.map Exact.real) (x.map Exact.real) =
      .real (List.zipWith (· * ·) row x).sum := by
  cases row with
  | nil =>
    obtain rfl := List.eq_nil_of_length_eq_zero same.symm
    rfl
  | cons a row =>
    cases x with
    | nil => cases same
    | cons b x =>
      have products : List.zipWith (· * ·) (row.map Exact.real) (x.map Exact.real) =
          (List.zipWith (· * ·) row x).map Exact.real := by
        rw [List.zipWith_map, List.map_zipWith]
        rfl
      rw [List.map_cons, List.map_cons, rowTimes, products, Exact.real_mul, foldl_onto_real,
        List.zipWith_cons_cons, List.sum_cons, add_comm]

theorem Matrix.times_ofReal (a : Fin m → Fin n → ℝ) (x : RealVector n) :
    (ofReal a).times (entries x) = entries (multiply a x) := by
  have product (i : Fin m) :
      rowTimes (entries (WithLp.toLp 2 (a i))) (entries x) = .real (∑ j, a i j * x j) := by
    have terms : List.zipWith (· * ·) (List.ofFn (a i)) (List.ofFn x) =
        List.ofFn fun j => a i j * x j := by
      apply List.ext_getElem <;> simp
    rw [entries_eq_map, entries_eq_map, rowTimes_real (by simp)]
    show Exact.real (List.zipWith (· * ·) (List.ofFn (a i)) (List.ofFn x)).sum = _
    rw [terms, List.sum_ofFn]
  rw [times, ofReal, List.map_ofFn]
  exact congrArg List.ofFn (funext product)

end Dense

section Diagonal

theorem zipWith_mul_entries (d x : RealVector n) :
    List.zipWith (· * ·) (entries d) (entries x) = entries (multiply (diag d) x) := by
  rw [zipWith_entries, multiply_diag]
  rfl

namespace Jacobi

theorem inverses_real (i : ℕ) {d : List ℝ} (nonzero : ∀ a ∈ d, a ≠ 0) :
    inverses i (d.map Exact.real) = .ok (d.map fun a => .real (1 / a)) := by
  induction d generalizing i with
  | nil => rfl
  | cons a d ih =>
    obtain ⟨ha, hd⟩ := List.forall_mem_cons.mp nonzero
    have regular : isSingular (Exact.real a) = false := by simp [isSingular, ha]
    rw [List.map_cons, inverses, regular, if_neg Bool.false_ne_true, ih (i + 1) hd]
    simp [Except.map, Exact.real_div ha]

theorem nonzero_of_inverses {i : ℕ} {d : List ℝ} {inverse : List Exact}
    (h : inverses i (d.map Exact.real) = .ok inverse) : ∀ a ∈ d, a ≠ 0 := by
  induction d generalizing i inverse with
  | nil => exact fun _ ha => absurd ha List.not_mem_nil
  | cons a d ih =>
    rw [List.map_cons, inverses] at h
    split at h
    · cases h
    · next regular =>
      cases hrest : inverses (i + 1) (d.map Exact.real) with
      | error failure =>
        rw [hrest] at h
        cases h
      | ok rest =>
        refine List.forall_mem_cons.mpr ⟨?_, ih hrest⟩
        rintro rfl
        simp [isSingular] at regular

/-- A diagonal without zeros has an inverse, and no other has one. -/
theorem ofDiagonal_entries_iff {d : RealVector n} {J : Jacobi Exact} :
    ofDiagonal (entries d) = .ok J ↔
      (∀ i, d i ≠ 0) ∧ J = ⟨entries (WithLp.toLp 2 fun i => 1 / d i)⟩ := by
  have inverted (nonzero : ∀ i, d i ≠ 0) :
      ofDiagonal (entries d) = .ok ⟨entries (WithLp.toLp 2 fun i => 1 / d i)⟩ := by
    have hd : ∀ a ∈ List.ofFn d, a ≠ 0 := by simpa [List.forall_mem_ofFn_iff] using nonzero
    rw [ofDiagonal, entries_eq_map, inverses_real 0 hd]
    simp [Except.map, entries, Function.comp_def]
  constructor
  · intro h
    have nonzero : ∀ i, d i ≠ 0 := by
      cases hinverses : inverses 0 (entries d) with
      | error failure =>
        rw [ofDiagonal, hinverses] at h
        cases h
      | ok inverse =>
        rw [entries_eq_map] at hinverses
        exact fun i => nonzero_of_inverses hinverses (d i) (List.mem_ofFn.mpr ⟨i, rfl⟩)
    rw [inverted nonzero] at h
    exact ⟨nonzero, (Except.ok.inj h).symm⟩
  · rintro ⟨nonzero, rfl⟩
    exact inverted nonzero

theorem ofMatrix_eq {T : Type} [Scalar T] {A : Matrix T} (square : A.rows.length = A.columns) :
    ofMatrix A = ofDiagonal A.diagonal :=
  if_pos square

end Jacobi

theorem Matrix.diagonalFrom_ofFn {T : Type} {p : ℕ} (k : ℕ) (rows : Fin p → List T)
    (d : Fin p → T) (h : ∀ i, ((rows i).drop (k + i)).head? = some (d i)) :
    diagonalFrom k (List.ofFn rows) = List.ofFn d := by
  induction p generalizing k with
  | zero => rfl
  | succ p ih =>
    have first : ((rows 0).drop k).head? = some (d 0) := h 0
    rw [List.ofFn_succ, List.ofFn_succ, diagonalFrom, first,
      ih (k + 1) _ (fun i => d i.succ) fun i => ?_]
    · rfl
    · have next := h i.succ
      rwa [Fin.val_succ, ← add_assoc, add_right_comm] at next

theorem Matrix.diagonal_ofReal (a : Fin n → Fin n → ℝ) :
    (ofReal a).diagonal = entries (WithLp.toLp 2 fun i => a i i) := by
  refine diagonalFrom_ofFn 0 _ _ fun i => ?_
  simp [List.head?_drop, entries]

end Diagonal

namespace Rule

/-- The shipped maps that represent the matrix with the given entries. -/
inductive Represents : {m n : ℕ} → Rule Exact → (Fin m → Fin n → ℝ) → Prop where
  | dense {m n : ℕ} (a : Fin m → Fin n → ℝ) : Represents (.dense (.ofReal a)) a
  | diagonal {n : ℕ} (d : RealVector n) : Represents (.diagonal ⟨entries d⟩) (diag d)
  | identity (n : ℕ) : Represents .identity (diag (1 : Fin n → ℝ))
  | jacobi {n : ℕ} {d : RealVector n} {J : Jacobi Exact}
      (h : Jacobi.ofDiagonal (entries d) = .ok J) :
      Represents (.jacobi J) (diag fun i => 1 / d i)

variable {rule : Rule Exact} {a : Fin m → Fin n → ℝ}

theorem Represents.maps (h : rule.Represents a) : rule.Maps n m := by
  cases h with
  | dense a => exact maps_dense_iff.mpr ⟨rfl, List.length_ofFn⟩
  | diagonal d => exact maps_diagonal_iff.mpr ⟨(length_entries d).symm, (length_entries d).symm⟩
  | identity => exact .identity m
  | @jacobi d J h =>
    obtain ⟨-, rfl⟩ := Jacobi.ofDiagonal_entries_iff.mp h
    exact maps_jacobi_iff.mpr ⟨(length_entries _).symm, (length_entries _).symm⟩

/-- A map that represents a matrix multiplies by it, whatever the buffer holds. -/
theorem Represents.apply_entries (h : rule.Represents a) (x : RealVector n) {y : List Exact}
    (hy : y.length = m) :
    rule.apply (entries x) y = ({ content := entries (multiply a x) }, rule) := by
  have fits : rule.Maps (entries x).length y.length := by
    rw [length_entries, hy]
    exact h.maps
  cases h with
  | dense a => rw [(applies_dense _).fitting _ _ fits, Matrix.times_ofReal]
  | diagonal d => rw [(applies_diagonal _).fitting _ _ fits, zipWith_mul_entries]
  | identity => rw [applies_identity.fitting _ _ fits, multiply_one, id]
  | @jacobi d J h =>
    obtain ⟨-, rfl⟩ := Jacobi.ofDiagonal_entries_iff.mp h
    rw [(applies_jacobi _).fitting _ _ fits, zipWith_mul_entries]

theorem Represents.serves {a : Fin n → Fin n → ℝ} (h : rule.Represents a) :
    Serves (multiply a) rule :=
  serves_of_apply fun x y => h.apply_entries x (length_entries y)

end Rule

end

end TrustRegion
