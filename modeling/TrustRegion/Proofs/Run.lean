import TrustRegion.Solver.Iteration

/-! Computations of a solve: the calls that successful ones consist of, and how success is shown. -/
namespace TrustRegion

namespace Run

variable {T S H P C : Type} (run : Run T S H P C) (event : Event T)

@[simp] theorem log_toCollaborators : (run.log event).toCollaborators = run.toCollaborators := rfl

@[simp] theorem log_figures : (run.log event).figures = run.figures := rfl

@[simp] theorem log_latest : (run.log event).latest = event :: run.latest := rfl

variable {V : Type} {run run' : Run T S H P C} {callee : Callee}

theorem eq_of_ofWritten {written : Written V} {v : V}
    (h : run.ofWritten callee written = .ok v run') : run' = run.log (.called callee none) := by
  rw [ofWritten] at h
  split at h
  · next hs =>
    cases h
    rw [hs]
  · cases h

theorem written_of_ofWritten {written : Written V} {v : V}
    (h : run.ofWritten callee written = .ok v run') : written = { content := v } := by
  rw [ofWritten] at h
  split at h
  · next hs =>
    cases h
    rw [← hs]
  · cases h

theorem eq_of_ofAnswer {answer : Except Failure T} {x : T}
    (h : run.ofAnswer callee answer = .ok x run') : run' = run.log (.called callee none) := by
  cases answer with
  | ok number =>
    cases h
    rfl
  | error failure => cases h

end Run

namespace RunM

variable {T V S H P C α β : Type}

theorem bind_eq_ok {m : RunM T S H P C α} {k : α → RunM T S H P C β} {run run' : Run T S H P C}
    {b : β} : (m >>= k) run = .ok b run' ↔ ∃ a mid, m run = .ok a mid ∧ k a mid = .ok b run' := by
  cases h : m run with
  | ok a mid =>
    refine ⟨fun hk => ⟨a, mid, rfl, by simpa only [bind, EStateM.bind, h] using hk⟩, ?_⟩
    rintro ⟨_, _, ⟨⟩, hk⟩
    simpa only [bind, EStateM.bind, h] using hk
  | error e mid => simp [bind, EStateM.bind, h]

theorem bind_of_ok {m : RunM T S H P C α} {k : α → RunM T S H P C β} {run mid : Run T S H P C}
    {a : α} (h : m run = .ok a mid) : (m >>= k) run = k a mid := by
  simp only [bind, EStateM.bind, h]

theorem bind_congr_at {m m' : RunM T S H P C α} {k k' : α → RunM T S H P C β}
    {run : Run T S H P C}
    (h : m run = m' run) (hk : ∀ a mid, m' run = .ok a mid → k a mid = k' a mid) :
    (m >>= k) run = (m' >>= k') run := by
  cases hm : m' run with
  | ok a mid => rw [bind_of_ok hm, bind_of_ok (h.trans hm), hk a mid hm]
  | error failure mid => simp only [bind, EStateM.bind, h.trans hm, hm]

theorem ite_congr_at {p p' : Prop} [Decidable p] [Decidable p'] {m m' n n' : RunM T S H P C α}
    {run : Run T S H P C} (h : p = p') (hm : p' → m run = m' run) (hn : ¬ p' → n run = n' run) :
    (if p then m else n) run = (if p' then m' else n') run := by
  subst h
  by_cases hp : p
  · rw [if_pos hp, if_pos hp, hm hp]
  · rw [if_neg hp, if_neg hp, hn hp]

/-- A call whose outcome is known drops out of `bind_eq_ok`. -/
@[simp] theorem exists_ok_eq {a : α} {mid : Run T S H P C} {p : α → Run T S H P C → Prop} :
    (∃ a' mid', (EStateM.Result.ok a mid : EStateM.Result Failure _ α) = .ok a' mid' ∧ p a' mid') ↔
      p a mid := by
  constructor
  · rintro ⟨_, _, ⟨⟩, hp⟩
    exact hp
  · exact fun hp => ⟨a, mid, rfl, hp⟩

variable (run : Run T S H P C)

@[simp] theorem pure_apply (a : α) : (pure a : RunM T S H P C α) run = .ok a run := rfl

@[simp] theorem throw_apply (e : Failure) : (throw e : RunM T S H P C α) run = .error e run := rfl

@[simp] theorem record_apply (event : Event T) :
    (record event : RunM T S H P C Unit) run = .ok () (run.log event) := rfl

@[simp] theorem note_apply (n : Note T) :
    (note n : RunM T S H P C Unit) run = .ok () (run.log (.noted n)) := rfl

@[simp] theorem iterations_apply :
    (iterations : RunM T S H P C Nat) run = .ok run.figures.iterations run := rfl

@[simp] theorem countIteration_apply :
    (countIteration : RunM T S H P C Unit) run =
      .ok () { run with figures.iterations := run.figures.iterations + 1 } := rfl

@[simp] theorem setStepNorm_apply (x : T) :
    (setStepNorm x : RunM T S H P C Unit) run =
      .ok () { run with figures.stepNorm := x } := rfl

@[simp] theorem mapObjective_apply (f : T → T) :
    (mapObjective f : RunM T S H P C Unit) run =
      .ok () { run with figures.objective := f run.figures.objective } := rfl

@[simp] theorem dimension_apply [VectorSpace T V S] (x : V) :
    (dimension x : RunM T S H P C Nat) run = .ok (VectorSpace.dimension run.space x) run := rfl

theorem judge_apply [ConvergenceTest T C] (i : Nat) (x : T) :
    judge i x run = .ok (ConvergenceTest.evaluate run.test i x).1
      (Run.log { run.log (.residual i x) with test := (ConvergenceTest.evaluate run.test i x).2 }
        (.evaluated i x (ConvergenceTest.evaluate run.test i x).1
          (ConvergenceTest.remark? run.test i x))) :=
  rfl

def Meets (m : RunM T S H P C α) (run : Run T S H P C) (post : α → Run T S H P C → Prop) : Prop :=
  ∃ a run', m run = .ok a run' ∧ post a run'

section Meets

variable {m : RunM T S H P C α} {k : α → RunM T S H P C β} {run mid : Run T S H P C}

theorem meets_pure {a : α} {post : α → Run T S H P C → Prop} (h : post a run) :
    (pure a : RunM T S H P C α).Meets run post :=
  ⟨a, run, rfl, h⟩

theorem Meets.bind {post : α → Run T S H P C → Prop} {post' : β → Run T S H P C → Prop}
    (hm : m.Meets run post) (hk : ∀ a mid, post a mid → (k a).Meets mid post') :
    (m >>= k).Meets run post' := by
  obtain ⟨a, mid, hrun, hpost⟩ := hm
  obtain ⟨b, run', hrest, hpost'⟩ := hk a mid hpost
  exact ⟨b, run', (bind_of_ok hrun).trans hrest, hpost'⟩

theorem Meets.step {a : α} {post : β → Run T S H P C → Prop} (h : m run = .ok a mid)
    (hk : (k a).Meets mid post) : (m >>= k).Meets run post := by
  obtain ⟨b, run', hrest, hpost⟩ := hk
  exact ⟨b, run', (bind_of_ok h).trans hrest, hpost⟩

end Meets

end RunM

end TrustRegion
