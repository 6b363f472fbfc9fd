import TrustRegion.Proofs.Exact.Certificate

/-! What the verdicts of the residual test tell about the norm that they are given for, over any
sequence of questions. One norm is told of wrongly: the absolute tolerance itself, where it is above
the relative one, converges by the relative tolerance. -/
namespace TrustRegion

/-- What a verdict tells about the norm `r`, where the initial norm is `r₀`. -/
def Verdict.Means (t : Tolerances Exact) (r₀ r : ℝ) : Verdict → Prop
  | .iterating => t.rtol.toReal * r₀ < r ∧ t.atol.toReal ≤ r ∧ r < t.dtol.toReal * r₀
  | .converged .relativeTolerance => r ≤ t.rtol.toReal * r₀
  | .converged .absoluteTolerance => r < t.atol.toReal
  | .diverged .growth => t.dtol.toReal * r₀ ≤ r
  | .converged .stepTooSmall | .diverged .notFinite => False

namespace ResidualTest

/-- The test after it has been asked about the given iterations and norms. -/
noncomputable def after (test : ResidualTest Exact) (asked : List (ℕ × ℝ)) : ResidualTest Exact :=
  asked.foldl (fun test (i, r) => (test.evaluate i (.real r)).2) test

def latestInitial? (asked : List (ℕ × ℝ)) : Option ℝ :=
  ((asked.filter (·.1 = 0)).map (·.2)).getLast?

variable {t : Tolerances Exact} {test : ResidualTest Exact} {r₀ r : ℝ} {i : ℕ}

theorem after_concat (test : ResidualTest Exact) (asked : List (ℕ × ℝ)) (i : ℕ) (r : ℝ) :
    test.after (asked ++ [(i, r)]) = ((test.after asked).evaluate i (.real r)).2 := by
  rw [after, List.foldl_append]
  rfl

theorem latestInitial?_concat_zero (asked : List (ℕ × ℝ)) (r : ℝ) :
    latestInitial? (asked ++ [(0, r)]) = some r := by
  simp [latestInitial?]

theorem latestInitial?_concat_pos (asked : List (ℕ × ℝ)) (later : 0 < i) (r : ℝ) :
    latestInitial? (asked ++ [(i, r)]) = latestInitial? asked := by
  simp [latestInitial?, later.ne']

/-- What a question about iteration 0 leaves, whatever has been asked before. -/
def IsSet (t : Tolerances Exact) (r₀ : ℝ) (test : ResidualTest Exact) : Prop :=
  test = ⟨t, .real r₀, .real (t.limit r₀)⟩

theorem isSet_evaluate_zero (valid : t.validate = .ok ()) (same : test.tolerances = t) (r : ℝ) :
    IsSet t r (test.evaluate 0 (.real r)).2 := by
  subst same
  rw [IsSet, ← target_evaluate valid r]
  rfl

theorem evaluate_pos (later : 0 < i) (r : ℝ) :
    test.evaluate i (.real r) = (test.judge (.real r), test) :=
  if_neg later.ne'

theorem after_tolerances (test : ResidualTest Exact) (asked : List (ℕ × ℝ)) :
    (test.after asked).tolerances = test.tolerances := by
  induction asked using List.reverseRecOn with
  | nil => rfl
  | append_singleton asked question ih =>
    obtain ⟨i, r⟩ := question
    rw [after_concat, evaluate]
    split
    · exact ih
    · exact ih

/-- Only the latest question about iteration 0 is remembered. -/
theorem isSet_after (valid : t.validate = .ok ()) (same : test.tolerances = t)
    {asked : List (ℕ × ℝ)} (initial : latestInitial? asked = some r₀) :
    IsSet t r₀ (test.after asked) := by
  induction asked using List.reverseRecOn with
  | nil => cases initial
  | append_singleton asked question ih =>
    obtain ⟨i, r⟩ := question
    rw [after_concat]
    rcases i.eq_zero_or_pos with rfl | later
    · rw [latestInitial?_concat_zero] at initial
      cases initial
      exact isSet_evaluate_zero valid ((after_tolerances test asked).trans same) r₀
    · rw [latestInitial?_concat_pos asked later] at initial
      rw [evaluate_pos later]
      exact ih initial

theorem IsSet.judge_atol (valid : t.validate = .ok ()) (set : IsSet t r₀ test)
    (h : r = t.atol.toReal) : test.judge (.real r) = .converged .relativeTolerance := by
  obtain ⟨rtol, atol, dtol, rfl⟩ := Tolerances.eq_real_of_valid valid
  obtain rfl : r = atol := h
  rw [set]
  simp [judge, Tolerances.limit, Exact.toReal]

/-- The verdicts of a set test mean what they say, save at the absolute tolerance. -/
theorem IsSet.judge_means (valid : t.validate = .ok ()) (set : IsSet t r₀ test)
    (h : r ≠ t.atol.toReal) : (test.judge (.real r)).Means t r₀ r := by
  obtain ⟨rtol, atol, dtol, rfl⟩ := Tolerances.eq_real_of_valid valid
  have h : r ≠ atol := h
  rw [set]
  simp only [judge, Tolerances.limit, Exact.toReal, Exact.isFinite_real, Bool.not_true,
    Bool.false_eq_true, if_false, Exact.real_le, Exact.real_lt, Exact.real_mul, ge_iff_le]
  by_cases target : r ≤ max (rtol * r₀) atol
  · rw [if_pos target]
    by_cases small : r < atol
    · rw [if_pos small]
      exact small
    · rw [if_neg small]
      exact (le_max_iff.mp target).resolve_right fun le => h (le_antisymm le (not_lt.mp small))
  · obtain ⟨relative, absolute⟩ := max_lt_iff.mp (not_le.mp target)
    rw [if_neg target]
    by_cases grown : dtol * r₀ ≤ r
    · rw [if_pos grown]
      exact grown
    · rw [if_neg grown]
      exact ⟨relative, absolute.le, not_le.mp grown⟩

/-- No question about iteration 0 stops a solve. Every later verdict means what it says, save on the
absolute tolerance where that is above the relative one: there it is convergence by the relative
tolerance. -/
theorem evaluate_means (created : create t = .ok test) (asked : List (ℕ × ℝ)) (r : ℝ) :
    ((test.after asked).evaluate 0 (.real r)).1 = .iterating ∧
      ∀ (r₀ : ℝ) (i : ℕ), latestInitial? asked = some r₀ → 0 < i →
        (((test.after asked).evaluate i (.real r)).1.Means t r₀ r ↔
          (r = t.atol.toReal → r ≤ t.rtol.toReal * r₀)) ∧
        (r = t.atol.toReal →
          ((test.after asked).evaluate i (.real r)).1 = .converged .relativeTolerance) := by
  refine ⟨rfl, fun r₀ i initial later => ?_⟩
  obtain ⟨valid, rfl⟩ : t.validate = .ok () ∧ fresh t = test := by
    cases valid : t.validate with
    | error failure => simp [create, valid, Except.map] at created
    | ok => exact ⟨rfl, by simpa [create, valid, Except.map] using created⟩
  have set : IsSet t r₀ ((fresh t).after asked) := isSet_after valid rfl initial
  rw [evaluate_pos later]
  refine ⟨?_, set.judge_atol valid⟩
  by_cases h : r = t.atol.toReal
  · show (((fresh t).after asked).judge (.real r)).Means t r₀ r ↔ _
    rw [set.judge_atol valid h]
    exact ⟨fun means _ => means, fun relative => relative h⟩
  · exact iff_of_true (set.judge_means valid h) fun absolute => absurd absolute h

def absoluteOnly : Tolerances Exact := ⟨.real 0, .real 1, .real 10⟩

theorem create_absoluteOnly : create absoluteOnly = .ok (fresh absoluteOnly) := by
  simp [create, absoluteOnly, Tolerances.validate, Tolerances.named, Except.map]

theorem evaluate_means_restarted :
    create absoluteOnly = .ok (fresh absoluteOnly) ∧
      latestInitial? [(0, 4), (1, 3), (0, 2)] = some 2 ∧
      (((fresh absoluteOnly).after [(0, 4), (1, 3), (0, 2)]).evaluate 5 (.real 3)).1.Means
        absoluteOnly 2 3 := by
  have initial : latestInitial? [(0, 4), (1, 3), (0, 2)] = some 2 := by simp [latestInitial?]
  refine ⟨create_absoluteOnly, initial, ?_⟩
  refine ((evaluate_means create_absoluteOnly _ 3).2 2 5 initial (by norm_num)).1.mpr fun h => ?_
  norm_num [absoluteOnly, Exact.toReal] at h

/-- A norm at the absolute tolerance converges by the relative one, of which it is far: its bound is
zero here. -/
theorem evaluate_belies_relative :
    create absoluteOnly = .ok (fresh absoluteOnly) ∧
      (((fresh absoluteOnly).after [(0, 2)]).evaluate 1 (.real 1)).1 =
        .converged .relativeTolerance ∧
      ¬ (Verdict.converged .relativeTolerance).Means absoluteOnly 2 1 := by
  have valid : absoluteOnly.validate = .ok () := by
    simp [absoluteOnly, Tolerances.validate, Tolerances.named]
  have set : IsSet absoluteOnly 2 ((fresh absoluteOnly).after [(0, 2)]) :=
    isSet_evaluate_zero valid rfl 2
  refine ⟨create_absoluteOnly, ?_, ?_⟩
  · rw [evaluate_pos Nat.one_pos]
    exact set.judge_atol valid rfl
  · norm_num [Verdict.Means, absoluteOnly, Exact.toReal]

end ResidualTest

end TrustRegion
