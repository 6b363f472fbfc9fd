import TrustRegion.Operator.Rule

/-! The shipped maps in every arithmetic: dense and diagonal matrices, the identity and the Jacobi
preconditioner. Each checks its shape before it writes, and then writes all of the output. -/
namespace TrustRegion

variable {T : Type}

/-- A shipped map, which takes vectors of `n` entries to vectors of `m` entries. -/
inductive Rule.Maps : Rule T → (n m : Nat) → Prop where
  | dense (A : Matrix T) : Maps (.dense A) A.columns A.rows.length
  | diagonal (D : Diagonal T) : Maps (.diagonal D) D.entries.length D.entries.length
  | identity (n : Nat) : Maps .identity n n
  | jacobi (J : Jacobi T) : Maps (.jacobi J) J.inverse.length J.inverse.length

namespace Rule

variable {rule : Rule T} {n m : Nat}

theorem maps_dense_iff {A : Matrix T} :
    (dense A).Maps n m ↔ A.columns = n ∧ A.rows.length = m := by
  constructor
  · rintro ⟨⟩
    exact ⟨rfl, rfl⟩
  · rintro ⟨rfl, rfl⟩
    exact .dense A

theorem maps_diagonal_iff {D : Diagonal T} :
    (diagonal D).Maps n m ↔ n = D.entries.length ∧ m = D.entries.length := by
  constructor
  · rintro ⟨⟩
    exact ⟨rfl, rfl⟩
  · rintro ⟨rfl, rfl⟩
    exact .diagonal D

theorem maps_identity_iff : (identity : Rule T).Maps n m ↔ n = m := by
  constructor
  · rintro ⟨⟩
    rfl
  · rintro rfl
    exact .identity n

theorem maps_jacobi_iff {J : Jacobi T} :
    (jacobi J).Maps n m ↔ n = J.inverse.length ∧ m = J.inverse.length := by
  constructor
  · rintro ⟨⟩
    exact ⟨rfl, rfl⟩
  · rintro ⟨rfl, rfl⟩
    exact .jacobi J

theorem Maps.unique {m' : Nat} (h : rule.Maps n m) (h' : rule.Maps n m') : m' = m := by
  cases h with
  | dense A => exact (maps_dense_iff.mp h').2.symm
  | diagonal D => exact (maps_diagonal_iff.mp h').2
  | identity => exact (maps_identity_iff.mp h').symm
  | jacobi J => exact (maps_jacobi_iff.mp h').2

variable [Scalar T]

/-- An application that writes `f x` to a buffer of the right length, or leaves a failure and the
buffer as it is; the rule stays. -/
structure Applies (rule : Rule T) (f : List T → List T) : Prop where
  fitting (x y : List T) (fits : rule.Maps x.length y.length) :
    rule.apply x y = ({ content := f x }, rule)
  unfitting (x y : List T) (fits : ¬ rule.Maps x.length y.length) :
    ∃ failure, rule.apply x y = ({ content := y, failure? := some failure }, rule)

theorem applies_dense (A : Matrix T) : (dense A).Applies A.times where
  fitting x y fits := by
    rw [maps_dense_iff] at fits
    simp only [apply, Matrix.apply, if_pos fits]
  unfitting x y fits := by
    rw [maps_dense_iff] at fits
    simp only [apply, Matrix.apply, if_neg fits]
    exact ⟨_, rfl⟩

theorem applies_diagonal (D : Diagonal T) :
    (diagonal D).Applies (List.zipWith (· * ·) D.entries) where
  fitting x y fits := by
    rw [maps_diagonal_iff] at fits
    simp only [apply, Diagonal.apply, scaleBy, if_pos fits]
  unfitting x y fits := by
    rw [maps_diagonal_iff] at fits
    simp only [apply, Diagonal.apply, scaleBy, if_neg fits]
    exact ⟨_, rfl⟩

theorem applies_identity : (identity : Rule T).Applies id where
  fitting x y fits := by
    rw [maps_identity_iff] at fits
    simp only [apply, Identity.apply, Euclidean.copy, sameLength, if_pos fits, id]
  unfitting x y fits := by
    rw [maps_identity_iff] at fits
    simp only [apply, Identity.apply, Euclidean.copy, sameLength, if_neg fits]
    exact ⟨_, rfl⟩

theorem applies_jacobi (J : Jacobi T) :
    (jacobi J).Applies (List.zipWith (· * ·) J.inverse) where
  fitting x y fits := by
    rw [maps_jacobi_iff] at fits
    simp only [apply, Jacobi.apply, scaleBy, if_pos fits]
  unfitting x y fits := by
    rw [maps_jacobi_iff] at fits
    simp only [apply, Jacobi.apply, scaleBy, if_neg fits]
    exact ⟨_, rfl⟩

theorem Maps.exists_applies (h : rule.Maps n m) : ∃ f, rule.Applies f := by
  cases h with
  | dense A => exact ⟨_, applies_dense A⟩
  | diagonal D => exact ⟨_, applies_diagonal D⟩
  | identity => exact ⟨_, applies_identity⟩
  | jacobi J => exact ⟨_, applies_jacobi J⟩

/-- A map that writes all of its output or nothing, and does not read what it writes over. -/
structure Atomic (rule : Rule T) : Prop where
  ok_iff (x y : List T) :
    (rule.apply x y).1.failure? = none ↔ rule.Maps x.length y.length
  untouched (x y : List T) (failed : (rule.apply x y).1.failure? ≠ none) :
    (rule.apply x y).1.content = y
  blind (x y y' : List T) (same : y'.length = y.length)
    (succeeded : (rule.apply x y).1.failure? = none) : rule.apply x y' = rule.apply x y
  stays (x y : List T) : (rule.apply x y).2 = rule

theorem Applies.atomic {f : List T → List T} (h : rule.Applies f) : rule.Atomic := by
  have ok_iff (x y : List T) :
      (rule.apply x y).1.failure? = none ↔ rule.Maps x.length y.length := by
    by_cases fits : rule.Maps x.length y.length
    · simp [h.fitting x y fits, fits]
    · obtain ⟨failure, happly⟩ := h.unfitting x y fits
      simp [happly, fits]
  constructor
  case ok_iff => exact ok_iff
  case untouched =>
    intro x y failed
    obtain ⟨failure, happly⟩ := h.unfitting x y (mt (ok_iff x y).mpr failed)
    rw [happly]
  case blind =>
    intro x y y' same succeeded
    have fits : rule.Maps x.length y.length := (ok_iff x y).mp succeeded
    rw [h.fitting x y fits, h.fitting x y' (same ▸ fits)]
  case stays =>
    intro x y
    by_cases fits : rule.Maps x.length y.length
    · rw [h.fitting x y fits]
    · obtain ⟨failure, happly⟩ := h.unfitting x y fits
      rw [happly]

theorem Maps.atomic (h : rule.Maps n m) : rule.Atomic := by
  obtain ⟨f, applies⟩ := h.exists_applies
  exact applies.atomic

end Rule

namespace Matrix

variable [Scalar T]

def addColumns : List (List T) → List T → List T → List T
  | _, [], sums => sums
  | rows, x :: xs, sums =>
    addColumns (rows.map List.tail) xs
      (List.zipWith (fun row sum => row.headD 0 * x + sum) rows sums)

/-- The product column by column: the first column times the first entry, to which the other
columns are added in order. -/
def sweep (A : Matrix T) : List T → List T
  | [] => Dense.zeros A.rows.length
  | x :: xs => addColumns (A.rows.map List.tail) xs (A.rows.map fun row => row.headD 0 * x)

theorem addColumns_cons (row : List T) (rows : List (List T)) (xs : List T) (sum : T)
    (sums : List T) (width : row.length = xs.length) :
    addColumns (row :: rows) xs (sum :: sums) =
      (List.zipWith (· * ·) row xs).foldl (fun sum term => term + sum) sum ::
        addColumns rows xs sums := by
  induction xs generalizing row rows sum sums with
  | nil =>
    obtain rfl := List.eq_nil_of_length_eq_zero width
    rfl
  | cons x xs ih =>
    cases row with
    | nil => cases width
    | cons a row => exact ih row (rows.map List.tail) _ _ (Nat.succ.inj width)

theorem addColumns_eq_rowTimes (rows : List (List T)) (x : T) (xs : List T)
    (widths : ∀ row ∈ rows, row.length = (x :: xs).length) :
    addColumns (rows.map List.tail) xs (rows.map fun row => row.headD 0 * x) =
      rows.map (rowTimes · (x :: xs)) := by
  induction rows with
  | nil =>
    induction xs with
    | nil => rfl
    | cons _ xs ih => exact ih nofun
  | cons row rows ih =>
    obtain ⟨width, others⟩ := List.forall_mem_cons.mp widths
    cases row with
    | nil => cases width
    | cons a row =>
      rw [List.map_cons, List.map_cons, List.map_cons, ← ih others]
      exact addColumns_cons row _ xs (a * x) _ (Nat.succ.inj width)

/-- The order in which a product is computed is that of the columns. -/
theorem sweep_eq_times (A : Matrix T) {x : List T} (h : x.length = A.columns) :
    A.sweep x = A.times x := by
  cases x with
  | nil =>
    have widths (row : List T) (hrow : row ∈ A.rows) : rowTimes row [] = 0 := by
      cases row with
      | nil => rfl
      | cons => rfl
    rw [times, List.map_congr_left widths, List.map_const']
    rfl
  | cons x xs =>
    exact addColumns_eq_rowTimes A.rows x xs fun row hrow => (A.length_eq row hrow).trans h.symm

end Matrix

end TrustRegion
