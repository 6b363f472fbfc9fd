import TrustRegion.Proofs.Pairing

/-! Runs that differ in their convergence tests only: as long as the tests give the same answers,
so do the runs. -/
namespace TrustRegion

variable {T V S H P C α β : Type}

/-- Two runs that are the same up to their convergence tests, which stand in the relation. -/
def Run.Twin (J : C → C → Prop) (run run' : Run T S H P C) : Prop :=
  ∃ test, J run.test test ∧ run' = { run with test }

/-- Outcomes with the same value or failure, after runs that are twins. -/
def Run.Matches (J : C → C → Prop) :
    EStateM.Result Failure (Run T S H P C) α → EStateM.Result Failure (Run T S H P C) α → Prop
  | .ok a run, .ok a' run' => a = a' ∧ run.Twin J run'
  | .error failure run, .error failure' run' => failure = failure' ∧ run.Twin J run'
  | _, _ => False

open RunM

variable {J : C → C → Prop} {run run' : Run T S H P C}

theorem Run.Matches.refl (hJ : ∀ c, J c c) (x : EStateM.Result Failure (Run T S H P C) α) :
    Run.Matches J x x := by
  cases x with
  | ok a run => exact ⟨rfl, run.test, hJ _, rfl⟩
  | error failure run => exact ⟨rfl, run.test, hJ _, rfl⟩

theorem Run.matches_iff {x y : EStateM.Result Failure (Run T S H P C) α} :
    Run.Matches J x y ↔ Run.Joined (Run.Twin J) Eq x y := by
  cases x with
  | ok a run => cases y <;> rfl
  | error failure run => cases y <;> rfl

namespace RunM

theorem matches_bind {m m' : RunM T S H P C α} {k k' : α → RunM T S H P C β}
    (hm : Run.Matches J (m run) (m' run'))
    (hk : ∀ a mid mid', mid.Twin J mid' → Run.Matches J (k a mid) (k' a mid')) :
    Run.Matches J ((m >>= k) run) ((m' >>= k') run') := by
  refine Run.matches_iff.mpr (joined_bind (Run.matches_iff.mp hm)
    fun a a' mid mid' _ _ heq twin => ?_)
  subst heq
  exact Run.matches_iff.mp (hk a mid mid' twin)

theorem matches_ofWritten (callee : Callee) (written : Written V) (twin : run.Twin J run') :
    Run.Matches J (run.ofWritten callee written) (run'.ofWritten callee written) := by
  obtain ⟨test, hJ, rfl⟩ := twin
  unfold Run.ofWritten
  split
  · exact ⟨rfl, test, hJ, rfl⟩
  · exact ⟨rfl, test, hJ, rfl⟩

theorem matches_ofAnswer (callee : Callee) (answer : Except Failure T) (twin : run.Twin J run') :
    Run.Matches J (run.ofAnswer callee answer) (run'.ofAnswer callee answer) := by
  obtain ⟨test, hJ, rfl⟩ := twin
  cases answer with
  | ok number => exact ⟨rfl, test, hJ, rfl⟩
  | error failure => exact ⟨rfl, test, hJ, rfl⟩

/-- A computation that twins carry out alike. -/
def Pairs (J : C → C → Prop) (m : RunM T S H P C α) : Prop :=
  ∀ ⦃run run'⦄, run.Twin J run' → Run.Matches J (m run) (m run')

theorem Pairs.keeps {m : RunM T S H P C α} (h : m.Pairs J) : m.Keeps (Run.Twin J) :=
  fun _ _ twin => Run.matches_iff.mp (h twin)

section

variable [VectorSpace T V S] [ActsOn V H] [ActsOn V P]

theorem Silent.pairs {m : RunM T S H P C α} (h : m.Silent) : m.Pairs J := by
  induction h with
  | pure a => exact fun _ _ twin => ⟨rfl, twin⟩
  | bind _ _ hm hk => exact fun _ _ twin => matches_bind (hm twin) fun a _ _ twin => hk a twin
  | copy | axpy | aypx | operate | precondition =>
    rintro run _ ⟨test, hJ, rfl⟩
    exact matches_ofWritten _ _ ⟨test, hJ, rfl⟩
  | dot | norm =>
    rintro run _ ⟨test, hJ, rfl⟩
    exact matches_ofAnswer _ _ ⟨test, hJ, rfl⟩
  | dimension | zerosLike | note | iterations | countIteration | setStepNorm | mapObjective =>
    rintro run _ ⟨test, hJ, rfl⟩
    exact ⟨rfl, test, hJ, rfl⟩

end

end RunM

/-- Tests in the relation answer and remark the same, and are in the relation again afterwards. -/
def AnswersAlike [ConvergenceTest T C] (J : C → C → Prop) : Prop :=
  ∀ c c', J c c' → ∀ (i : Nat) (x : T),
    (ConvergenceTest.evaluate c i x).1 = (ConvergenceTest.evaluate c' i x).1 ∧
      ConvergenceTest.remark? c i x = ConvergenceTest.remark? c' i x ∧
      J (ConvergenceTest.evaluate c i x).2 (ConvergenceTest.evaluate c' i x).2

/-- Tests between which the first question to either makes no difference. -/
def Interchange [ConvergenceTest T C] (c c' : C) : Prop :=
  ∀ x : T, ConvergenceTest.evaluate c 0 x = ConvergenceTest.evaluate c' 0 x ∧
    ConvergenceTest.remark? c 0 x = ConvergenceTest.remark? c' 0 x

namespace RunM

section

variable [VectorSpace T V S] [ActsOn V H] [ActsOn V P] [ConvergenceTest T C]

theorem pairs_judge (hJ : AnswersAlike J) (i : Nat) (x : T) :
    (judge i x : RunM T S H P C Verdict).Pairs J := by
  rintro run _ ⟨test, hrel, rfl⟩
  obtain ⟨hverdict, hremark, hnext⟩ := hJ run.test test hrel i x
  rw [judge_apply, judge_apply, hverdict, hremark]
  exact ⟨rfl, _, hnext, rfl⟩

theorem Composed.pairs (hJ : AnswersAlike J) {m : RunM T S H P C α} (h : m.Composed) :
    m.Pairs J := by
  induction h with
  | silent h => exact h.pairs
  | bind _ _ hm hk => exact fun _ _ twin => matches_bind (hm twin) fun a _ _ twin => hk a twin
  | judge i x => exact pairs_judge hJ i x

theorem judge_eq_of_interchange (x : T) (h : run.Twin Interchange run') :
    (judge 0 x : RunM T S H P C Verdict) run = judge 0 x run' := by
  obtain ⟨test, hchange, rfl⟩ := h
  obtain ⟨hanswer, hremark⟩ := hchange x
  rw [judge_apply, judge_apply, hanswer, hremark]
  rfl

end

end RunM

section Solve

variable [Scalar T] [VectorSpace T V S] [ActsOn V H] [ActsOn V P] {s : Settings T} {rhs : V}

theorem pairs_start : (start rhs : RunM T S H P C (Start T V)).Pairs J :=
  fun _ _ twin => Run.matches_iff.mpr (keeps_start (fun silent => silent.pairs.keeps) rhs twin)

variable [ConvergenceTest T C] {m : Nat}

theorem pairs_iterate_of_first
    (hfirst : ∀ (b : Start T V) (rest : Phase V (Iterate T V) → RunM T S H P C (Stop V)),
      (∀ phase, (rest phase).Composed) → (first s rhs b >>= rest).Pairs J) :
    (iterate s rhs m : RunM T S H P C (Stop V)).Pairs J := by
  refine fun _ _ twin => matches_bind ((Silent.dimension rhs).pairs twin) fun _ _ _ twin =>
    matches_bind (pairs_start twin) fun b _ _ twin => ?_
  split
  · exact (silent_fallBack s rhs b _ _).pairs twin
  · split
    · exact (silent_fallBack s rhs b _ _).pairs twin
    · refine hfirst b _ (fun phase => ?_) twin
      cases phase with
      | stopped reason step => exact .silent (.pure _)
      | going it => exact composed_passes _ it

theorem pairs_iterate (hJ : AnswersAlike J) :
    (iterate s rhs m : RunM T S H P C (Stop V)).Pairs J :=
  pairs_iterate_of_first fun _ _ hrest => (Composed.bind composed_first hrest).pairs hJ

/-- The test is first asked about iteration 0, so that tests which this question cannot tell apart
make no difference to a solve. -/
theorem pairs_iterate_of_interchange :
    (iterate s rhs m : RunM T S H P C (Stop V)).Pairs Interchange := by
  refine pairs_iterate_of_first fun b rest _ run run' twin => ?_
  rw [first, bind_assoc]
  refine matches_bind (aloof_residualNorm.silent.pairs twin) fun norm mid mid' twin => ?_
  rw [bind_assoc]
  have asked : (judge 0 norm : RunM T S H P C Verdict) mid = judge 0 norm mid' :=
    judge_eq_of_interchange norm twin
  simp only [bind, EStateM.bind, asked]
  exact Run.Matches.refl (fun _ _ => ⟨rfl, rfl⟩) _

end Solve

end TrustRegion
